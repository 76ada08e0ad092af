import LiveDex.Bytes

/-!
Constants of a class file. The text of a `utf8` constant is a byte string as it stands in the
file and a string once it is decoded, so the type of texts is a parameter. All other constants
hold numbers or indices of further constants.
-/
namespace LiveDex.ClassFile

inductive Kind where
  | utf8
  | integer
  | float
  | long
  | double
  | classRef
  | stringRef
  | fieldRef
  | methodRef
  | interfaceMethodRef
  | nameAndType
  | methodHandle
  | methodType
  | dynamic
  | invokeDynamic
  | moduleRef
  | packageRef
  deriving DecidableEq, Repr

namespace Kind

def all : List Kind :=
  [.utf8, .integer, .float, .long, .double, .classRef, .stringRef, .fieldRef, .methodRef,
    .interfaceMethodRef, .nameAndType, .methodHandle, .methodType, .dynamic, .invokeDynamic,
    .moduleRef, .packageRef]

/-- The byte that announces a constant of this kind. -/
def tag : Kind → UInt8
  | .utf8 => 1
  | .integer => 3
  | .float => 4
  | .long => 5
  | .double => 6
  | .classRef => 7
  | .stringRef => 8
  | .fieldRef => 9
  | .methodRef => 10
  | .interfaceMethodRef => 11
  | .nameAndType => 12
  | .methodHandle => 15
  | .methodType => 16
  | .dynamic => 17
  | .invokeDynamic => 18
  | .moduleRef => 19
  | .packageRef => 20

def ofTag? (tag : UInt8) : Option Kind :=
  all.find? fun kind => kind.tag = tag

def label : Kind → String
  | .utf8 => "Utf8"
  | .integer => "Integer"
  | .float => "Float"
  | .long => "Long"
  | .double => "Double"
  | .classRef => "Class"
  | .stringRef => "String"
  | .fieldRef => "Fieldref"
  | .methodRef => "Methodref"
  | .interfaceMethodRef => "InterfaceMethodref"
  | .nameAndType => "NameAndType"
  | .methodHandle => "MethodHandle"
  | .methodType => "MethodType"
  | .dynamic => "Dynamic"
  | .invokeDynamic => "InvokeDynamic"
  | .moduleRef => "Module"
  | .packageRef => "Package"

end Kind

/-- Floats and doubles are kept as their bits. -/
inductive Constant (τ : Type) where
  | utf8 (text : τ)
  | integer (value : Int32)
  | float (bits : UInt32)
  | long (value : Int64)
  | double (bits : UInt64)
  | classRef (name : UInt16)
  | stringRef (text : UInt16)
  | fieldRef (owner signature : UInt16)
  | methodRef (owner signature : UInt16)
  | interfaceMethodRef (owner signature : UInt16)
  | nameAndType (name descriptor : UInt16)
  | methodHandle (form : UInt8) (reference : UInt16)
  | methodType (descriptor : UInt16)
  | dynamic (bootstrap signature : UInt16)
  | invokeDynamic (bootstrap signature : UInt16)
  | moduleRef (name : UInt16)
  | packageRef (name : UInt16)
  deriving DecidableEq, Repr

namespace Constant

variable {τ σ : Type}

def kind : Constant τ → Kind
  | .utf8 .. => .utf8
  | .integer .. => .integer
  | .float .. => .float
  | .long .. => .long
  | .double .. => .double
  | .classRef .. => .classRef
  | .stringRef .. => .stringRef
  | .fieldRef .. => .fieldRef
  | .methodRef .. => .methodRef
  | .interfaceMethodRef .. => .interfaceMethodRef
  | .nameAndType .. => .nameAndType
  | .methodHandle .. => .methodHandle
  | .methodType .. => .methodType
  | .dynamic .. => .dynamic
  | .invokeDynamic .. => .invokeDynamic
  | .moduleRef .. => .moduleRef
  | .packageRef .. => .packageRef

/-- Longs and doubles take two slots of the pool. -/
def isWide (c : Constant τ) : Bool :=
  c.kind = .long || c.kind = .double

def needsInvokeDynamic (c : Constant τ) : Bool :=
  [Kind.methodHandle, .methodType, .dynamic, .invokeDynamic].contains c.kind

/-- Indices held by a constant in the order of its fields, each with the kind its target must
have; a method handle may point at any constant. -/
def references : Constant τ → List (UInt16 × Option Kind)
  | .classRef name | .moduleRef name | .packageRef name => [(name, some .utf8)]
  | .stringRef text => [(text, some .utf8)]
  | .methodType descriptor => [(descriptor, some .utf8)]
  | .nameAndType name descriptor => [(name, some .utf8), (descriptor, some .utf8)]
  | .fieldRef owner signature
  | .methodRef owner signature
  | .interfaceMethodRef owner signature =>
    [(owner, some .classRef), (signature, some .nameAndType)]
  | .dynamic _ signature | .invokeDynamic _ signature => [(signature, some .nameAndType)]
  | .methodHandle _ reference => [(reference, none)]
  | .utf8 _ | .integer _ | .float _ | .long _ | .double _ => []

/-- Replaces the text of a `utf8` constant by another form of it, if it has one. -/
def mapText? (f : τ → Option σ) : Constant τ → Option (Constant σ)
  | .utf8 text => (f text).map .utf8
  | .integer value => some (.integer value)
  | .float bits => some (.float bits)
  | .long value => some (.long value)
  | .double bits => some (.double bits)
  | .classRef name => some (.classRef name)
  | .stringRef text => some (.stringRef text)
  | .fieldRef owner signature => some (.fieldRef owner signature)
  | .methodRef owner signature => some (.methodRef owner signature)
  | .interfaceMethodRef owner signature => some (.interfaceMethodRef owner signature)
  | .nameAndType name descriptor => some (.nameAndType name descriptor)
  | .methodHandle form reference => some (.methodHandle form reference)
  | .methodType descriptor => some (.methodType descriptor)
  | .dynamic bootstrap signature => some (.dynamic bootstrap signature)
  | .invokeDynamic bootstrap signature => some (.invokeDynamic bootstrap signature)
  | .moduleRef name => some (.moduleRef name)
  | .packageRef name => some (.packageRef name)

end Constant

end LiveDex.ClassFile
