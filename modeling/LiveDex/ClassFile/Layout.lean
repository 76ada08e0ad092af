import LiveDex.ClassFile.Basic

/-!
The byte layout of class files. An indexed class file names its parts by indices of constants, as
the bytes do. All words are in the big order and every list stands behind its length. A layout
can be read back only if every length fits the word it is written as.
-/
namespace LiveDex.ClassFile

def layout16 (n : UInt16) : Bytes := Bytes.ofNat .big 2 n.toNat

def layout32 (n : UInt32) : Bytes := Bytes.ofNat .big 4 n.toNat

def layout64 (n : UInt64) : Bytes := Bytes.ofNat .big 8 n.toNat

/-- A list behind its length, which is a word of two bytes. -/
def layoutList {α : Type} (item : α → Bytes) (items : List α) : Bytes :=
  Bytes.ofNat .big 2 items.length ++ items.flatMap item

namespace Constant

/-- What stands behind the tag of a constant. -/
def bodyLayout : Constant Bytes → Bytes
  | .utf8 text => Bytes.ofNat .big 2 text.length ++ text
  | .integer value => layout32 value.toUInt32
  | .float bits => layout32 bits
  | .long value => layout64 value.toUInt64
  | .double bits => layout64 bits
  | .classRef index | .stringRef index | .methodType index
  | .moduleRef index | .packageRef index => layout16 index
  | .fieldRef first second | .methodRef first second | .interfaceMethodRef first second
  | .nameAndType first second | .dynamic first second | .invokeDynamic first second =>
    layout16 first ++ layout16 second
  | .methodHandle form reference => form :: layout16 reference

def layout (c : Constant Bytes) : Bytes :=
  c.kind.tag :: c.bodyLayout

/-- The slots that a constant takes; the second one of a long or double is unusable. -/
def slots {τ : Type} (c : Constant τ) : List (Option (Constant τ)) :=
  if c.isWide then [some c, none] else [some c]

def Fits : Constant Bytes → Prop
  | .utf8 text => text.length < UInt16.size
  | _ => True

end Constant

/-- The pool whose constants are the given ones, in their order. -/
def Pool.ofConstants (constants : List (Constant String)) : Pool :=
  ⟨(none :: constants.flatMap Constant.slots).toArray⟩

structure IndexedAttribute where
  name : UInt16
  data : Bytes
  deriving DecidableEq, Repr

def IndexedAttribute.layout (attr : IndexedAttribute) : Bytes :=
  layout16 attr.name ++ Bytes.ofNat .big 4 attr.data.length ++ attr.data

def IndexedAttribute.Fits (attr : IndexedAttribute) : Prop :=
  attr.data.length < UInt32.size

/-- A range of code and where an exception that leaves it is handled. -/
structure ExceptionEntry where
  start : UInt16
  stop : UInt16
  handler : UInt16
  catchType : UInt16
  deriving DecidableEq, Repr

def ExceptionEntry.layout (entry : ExceptionEntry) : Bytes :=
  layout16 entry.start ++ layout16 entry.stop ++ layout16 entry.handler
    ++ layout16 entry.catchType

/-- What the bytes of a `Code` attribute hold. -/
structure IndexedCode where
  maxStack : UInt16
  maxLocals : UInt16
  code : Bytes
  exceptionTable : List ExceptionEntry
  attributes : List IndexedAttribute
  deriving DecidableEq, Repr

namespace IndexedCode

def layout (code : IndexedCode) : Bytes :=
  layout16 code.maxStack ++ layout16 code.maxLocals
    ++ Bytes.ofNat .big 4 code.code.length ++ code.code
    ++ layoutList ExceptionEntry.layout code.exceptionTable
    ++ layoutList IndexedAttribute.layout code.attributes

structure Fits (code : IndexedCode) : Prop where
  code_length : code.code.length < UInt32.size
  exceptions_length : code.exceptionTable.length < UInt16.size
  attributes_length : code.attributes.length < UInt16.size
  attributes_fit : ∀ attr ∈ code.attributes, attr.Fits

end IndexedCode

structure IndexedMember where
  accessFlags : UInt16
  name : UInt16
  descriptor : UInt16
  attributes : List IndexedAttribute
  deriving DecidableEq, Repr

namespace IndexedMember

def layout (member : IndexedMember) : Bytes :=
  layout16 member.accessFlags ++ layout16 member.name ++ layout16 member.descriptor
    ++ layoutList IndexedAttribute.layout member.attributes

structure Fits (member : IndexedMember) : Prop where
  attributes_length : member.attributes.length < UInt16.size
  attributes_fit : ∀ attr ∈ member.attributes, attr.Fits

end IndexedMember

end ClassFile

/-- A class file whose names are indices of constants, and whose texts are bytes. -/
structure IndexedClassFile where
  minorVersion : UInt16
  majorVersion : UInt16
  /-- Constants in the order of their indices. -/
  constants : List (ClassFile.Constant Bytes)
  accessFlags : UInt16
  thisClass : UInt16
  superClass : UInt16
  interfaces : List UInt16
  fields : List ClassFile.IndexedMember
  methods : List ClassFile.IndexedMember
  attributes : List ClassFile.IndexedAttribute
  deriving DecidableEq, Repr

namespace IndexedClassFile

/-- Slots of the pool: those that the constants take, and slot 0. -/
def slotCount (file : IndexedClassFile) : Nat :=
  1 + (file.constants.flatMap ClassFile.Constant.slots).length

def layout (file : IndexedClassFile) : Bytes :=
  ClassFile.layout32 ClassFile.magic ++ ClassFile.layout16 file.minorVersion
    ++ ClassFile.layout16 file.majorVersion ++ Bytes.ofNat .big 2 file.slotCount
    ++ file.constants.flatMap ClassFile.Constant.layout
    ++ ClassFile.layout16 file.accessFlags ++ ClassFile.layout16 file.thisClass
    ++ ClassFile.layout16 file.superClass
    ++ ClassFile.layoutList ClassFile.layout16 file.interfaces
    ++ ClassFile.layoutList ClassFile.IndexedMember.layout file.fields
    ++ ClassFile.layoutList ClassFile.IndexedMember.layout file.methods
    ++ ClassFile.layoutList ClassFile.IndexedAttribute.layout file.attributes

structure Fits (file : IndexedClassFile) : Prop where
  slots_count : file.slotCount < UInt16.size
  constants_fit : ∀ c ∈ file.constants, c.Fits
  interfaces_length : file.interfaces.length < UInt16.size
  fields_length : file.fields.length < UInt16.size
  fields_fit : ∀ member ∈ file.fields, member.Fits
  methods_length : file.methods.length < UInt16.size
  methods_fit : ∀ member ∈ file.methods, member.Fits
  attributes_length : file.attributes.length < UInt16.size
  attributes_fit : ∀ attr ∈ file.attributes, attr.Fits

end IndexedClassFile

end LiveDex
