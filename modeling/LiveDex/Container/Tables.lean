import LiveDex.Dialect
import LiveDex.Record

/-!
Containers at the level of indices. Strings are listed once and referred to by position, a type
is the position of its descriptor among the strings, and classes refer to both lists. Nothing
here says that the indices are in range.
-/
namespace LiveDex.Container

/-- Stands for an absent superclass or source file. -/
def noIndex : UInt32 := 0xffffffff

structure FieldEntry where
  name : UInt32
  type : UInt32
  accessFlags : UInt32
  deriving DecidableEq, Repr

structure MethodEntry where
  name : UInt32
  proto : UInt32
  accessFlags : UInt32
  code : Option CodeItem
  deriving DecidableEq, Repr

structure ClassEntry where
  type : UInt32
  accessFlags : UInt32
  superclass : UInt32
  interfaces : List UInt32
  sourceFile : UInt32
  fields : List FieldEntry
  methods : List MethodEntry
  deriving DecidableEq, Repr

structure Tables where
  dialect : Dialect
  strings : Array String
  types : Array UInt32
  classes : List ClassEntry
  deriving DecidableEq, Repr

end LiveDex.Container
