import LiveDex.Container.Layout
import LiveDex.Reader

/-!
Reading containers back as tables. The header is checked from the front: magic, dialect, file
size, signature, flags. The tables must then use up the rest of the bytes.
-/
namespace LiveDex.Container

inductive DecodeError where
  | endOfInput
  | invalidMagic (found : Bytes)
  | unsupportedDialect (version : Bytes)
  | unsupportedFlags (flags : UInt16)
  | fileSize (declared : UInt32) (actual : Nat)
  | signature
  | invalidCodeFlag (flag : UInt8)
  | invalidText
  | trailingBytes
  deriving DecidableEq, Repr

instance : EndOfInput DecodeError where
  endedAt _ := .endOfInput

/-- Bytes as a list of numbers in brackets. -/
def byteList (bytes : Bytes) : String :=
  "[" ++ ", ".intercalate (bytes.map toString) ++ "]"

def DecodeError.message : DecodeError → String
  | .endOfInput => "unexpected end of input"
  | .invalidMagic found => "invalid magic: " ++ byteList found
  | .unsupportedDialect version => "unsupported container dialect: " ++ byteList version
  | .unsupportedFlags flags => s!"unsupported flags: {flags}"
  | .fileSize declared actual =>
    s!"declared file size {declared} does not match actual size {actual}"
  | .signature => "container signature mismatch"
  | .invalidCodeFlag flag => s!"invalid code flag: {flag}"
  | .invalidText => "invalid utf-8 string"
  | .trailingBytes => "trailing bytes after container payload"

def readList {α : Type} (item : Reader DecodeError α) : Reader DecodeError (List α) := do
  let count ← .word32 .little
  .times count.toNat item

def readString : Reader DecodeError String := do
  let length ← .word32 .little
  match Text.ofUtf8? (← .take length.toNat) with
  | some text => return text
  | none => .fail .invalidText

def FieldEntry.read : Reader DecodeError FieldEntry := do
  let name ← .word32 .little
  let type ← .word32 .little
  let accessFlags ← .word32 .little
  return ⟨name, type, accessFlags⟩

def readCodeItem : Reader DecodeError CodeItem := do
  let registers ← .word16 .little
  let ins ← .word16 .little
  let outs ← .word16 .little
  let tries ← .word16 .little
  let length ← .word32 .little
  let insns ← .take length.toNat
  return ⟨registers, ins, outs, tries, insns⟩

def readCode : Reader DecodeError (Option CodeItem) := do
  let flag ← .byte
  if flag = 0 then return none
  else if flag = 1 then return some (← readCodeItem)
  else .fail (.invalidCodeFlag flag)

def MethodEntry.read : Reader DecodeError MethodEntry := do
  let name ← .word32 .little
  let proto ← .word32 .little
  let accessFlags ← .word32 .little
  let code ← readCode
  return ⟨name, proto, accessFlags, code⟩

def ClassEntry.read : Reader DecodeError ClassEntry := do
  let type ← .word32 .little
  let accessFlags ← .word32 .little
  let superclass ← .word32 .little
  let interfaces ← readList (.word32 .little)
  let sourceFile ← .word32 .little
  let fields ← readList FieldEntry.read
  let methods ← readList MethodEntry.read
  return ⟨type, accessFlags, superclass, interfaces, sourceFile, fields, methods⟩

def readDialect : Reader DecodeError Dialect := do
  let mark ← .take 4
  if mark ≠ Dialect.containerMark then .fail (.invalidMagic mark)
  let version ← .take 4
  match Dialect.ofVersionBytes? version with
  | some dialect => return dialect
  | none => .fail (.unsupportedDialect version)

/-- Everything in front of the tables; the size and the signature are those of `bytes`. -/
def readHeader (bytes : Bytes) : Reader DecodeError Dialect := do
  let dialect ← readDialect
  let signature ← .take signatureLength
  let declared ← .word32 .little
  if declared.toNat ≠ bytes.length then .fail (.fileSize declared bytes.length)
  if Digest.sha1 (bytes.drop (dialect.magic.length + signatureLength)) ≠ signature then
    .fail .signature
  let flags ← .word16 .little
  if flags ≠ plainFlags then .fail (.unsupportedFlags flags)
  return dialect

def Tables.read (bytes : Bytes) : Reader DecodeError Tables := do
  let dialect ← readHeader bytes
  let strings ← readList readString
  let types ← readList (.word32 .little)
  let classes ← readList ClassEntry.read
  unless ← .atEnd do
    .fail .trailingBytes
  return ⟨dialect, strings.toArray, types.toArray, classes⟩

def Tables.decode (bytes : Bytes) : Except DecodeError Tables :=
  match (Tables.read bytes).run bytes with
  | .error e => .error e
  | .ok (tables, _) => .ok tables

end LiveDex.Container
