import LiveDex.Bytes
import LiveDex.ClassName

/-!
Class records, as containers hold them. Types are descriptors, and instruction bytes are carried
without being looked into.
-/
namespace LiveDex

structure FieldRecord where
  name : String
  typeDescriptor : String
  accessFlags : UInt32
  deriving DecidableEq, Repr

structure CodeItem where
  registers : UInt16
  ins : UInt16
  outs : UInt16
  tries : UInt16
  insns : Bytes
  deriving DecidableEq, Repr

structure MethodRecord where
  name : String
  proto : String
  accessFlags : UInt32
  code : Option CodeItem
  deriving DecidableEq, Repr

structure ClassRecord where
  descriptor : String
  accessFlags : UInt32 := 0
  superclass : Option String := none
  interfaces : List String := []
  sourceFile : Option String := none
  fields : List FieldRecord := []
  methods : List MethodRecord := []
  deriving DecidableEq, Repr

def ClassRecord.internalName (record : ClassRecord) : String :=
  ClassName.ofDescriptor record.descriptor

/-- How messages name a member of a class. -/
def memberName (classDescriptor name : String) : String :=
  classDescriptor ++ "->" ++ name

end LiveDex
