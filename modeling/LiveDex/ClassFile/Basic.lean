import LiveDex.ClassFile.Pool

/-!
Class files with their indices resolved: names and descriptors are strings. An attribute keeps
its bytes, and the first `Code` attribute of a member is also given in parts.
-/
namespace LiveDex.ClassFile

/-- The word that starts every class file. -/
def magic : UInt32 := 0xcafebabe

structure Attribute where
  name : String
  data : Bytes
  deriving DecidableEq, Repr

structure Code where
  maxStack : UInt16
  maxLocals : UInt16
  code : Bytes
  exceptionTableLength : UInt16
  deriving DecidableEq, Repr

structure Member where
  accessFlags : UInt16
  name : String
  descriptor : String
  code : Option Code
  attributes : List Attribute
  deriving DecidableEq, Repr

end ClassFile

structure ClassFile where
  minorVersion : UInt16
  majorVersion : UInt16
  pool : ClassFile.Pool
  accessFlags : UInt16
  thisClass : String
  superClass : Option String
  interfaces : List String
  fields : List ClassFile.Member
  methods : List ClassFile.Member
  sourceFile : Option String
  attributes : List ClassFile.Attribute
  deriving DecidableEq, Repr

end LiveDex
