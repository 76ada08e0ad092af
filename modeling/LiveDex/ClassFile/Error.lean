import LiveDex.ClassFile.Constant
import LiveDex.Reader
import LiveDex.Text.Numeral

/-!
The ways a byte string fails to be a class file. Reading stops at the first problem it meets.
-/
namespace LiveDex.ClassFile

inductive Error where
  | endOfInput (offset : Nat)
  | invalidMagic (found : UInt32)
  | invalidTag (index : UInt16) (tag : UInt8)
  /-- No usable constant stands at the index. -/
  | invalidIndex (index : UInt16)
  | unexpectedKind (index : UInt16) (expected : Kind)
  | invalidText (index : UInt16)
  | attributeLength (name : String) (declared : UInt32)
  | trailingBytes (offset : Nat)
  deriving DecidableEq, Repr

instance : EndOfInput Error where
  endedAt := .endOfInput

def Error.message : Error → String
  | .endOfInput offset => s!"unexpected end of class file at offset {offset}"
  | .invalidMagic found => "invalid class file magic: 0x" ++ Text.hex 8 found.toNat
  | .invalidTag index tag => s!"invalid constant pool tag {tag} at index {index}"
  | .invalidIndex index => s!"unresolvable constant pool index {index}"
  | .unexpectedKind index expected =>
    s!"constant pool index {index} is not a " ++ expected.label ++ " entry"
  | .invalidText index => s!"invalid utf-8 in constant pool entry {index}"
  | .attributeLength name declared =>
    s!"attribute '{name}' does not match its declared length {declared}"
  | .trailingBytes offset => s!"trailing bytes after class file at offset {offset}"

end LiveDex.ClassFile
