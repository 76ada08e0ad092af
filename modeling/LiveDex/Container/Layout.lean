import LiveDex.Container.Tables
import LiveDex.Digest

/-!
The byte layout of containers. All words are in the little order and every list stands behind
its length. The layout of the tables is preceded by the magic of the dialect, a signature, the
size of the whole file and the flags; the signature covers everything behind it.
-/
namespace LiveDex.Container

def signatureLength : Nat := 20

/-- Magic, signature, file size and flags. -/
def headerLength : Nat := 34

/-- The only flags word that is understood. -/
def plainFlags : UInt16 := 0

def word16 (n : UInt16) : Bytes := Bytes.ofNat .little 2 n.toNat

def word32 (n : UInt32) : Bytes := Bytes.ofNat .little 4 n.toNat

def lengthWord (n : Nat) : Bytes := Bytes.ofNat .little 4 n

def listLayout {α : Type} (item : α → Bytes) (items : List α) : Bytes :=
  lengthWord items.length ++ items.flatMap item

def stringLayout (text : String) : Bytes :=
  let bytes := Text.utf8 text
  lengthWord bytes.length ++ bytes

def FieldEntry.layout (field : FieldEntry) : Bytes :=
  word32 field.name ++ word32 field.type ++ word32 field.accessFlags

/-- A flag byte says whether code follows. -/
def codeLayout : Option CodeItem → Bytes
  | none => [0]
  | some code =>
    1 :: (word16 code.registers ++ word16 code.ins ++ word16 code.outs ++ word16 code.tries
      ++ lengthWord code.insns.length ++ code.insns)

def MethodEntry.layout (method : MethodEntry) : Bytes :=
  word32 method.name ++ word32 method.proto ++ word32 method.accessFlags
    ++ codeLayout method.code

def ClassEntry.layout (entry : ClassEntry) : Bytes :=
  word32 entry.type ++ word32 entry.accessFlags ++ word32 entry.superclass
    ++ listLayout word32 entry.interfaces ++ word32 entry.sourceFile
    ++ listLayout FieldEntry.layout entry.fields ++ listLayout MethodEntry.layout entry.methods

def Tables.layout (tables : Tables) : Bytes :=
  listLayout stringLayout tables.strings.toList ++ listLayout word32 tables.types.toList
    ++ listLayout ClassEntry.layout tables.classes

/-- What the signature covers: the file size, the flags and the tables. -/
def signedPart (body : Bytes) : Bytes :=
  lengthWord (headerLength + body.length) ++ word16 plainFlags ++ body

def sealed (dialect : Dialect) (signed : Bytes) : Bytes :=
  dialect.magic ++ Digest.sha1 signed ++ signed

end LiveDex.Container
