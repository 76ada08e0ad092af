import LiveDex.Dialect
import LiveDex.Record

/-!
Bundles: the class records that go into one container, in the order in which they were added.
No two records of a bundle have the same descriptor, and the first one added stays.
-/
namespace LiveDex

structure Bundle where
  dialect : Dialect
  classes : List ClassRecord := []
  deriving DecidableEq, Repr

namespace Bundle

inductive Error where
  | duplicateClass (descriptor : String)
  deriving DecidableEq, Repr

def Error.message : Error → String
  | .duplicateClass descriptor => s!"class {descriptor} already added to container"

def defines (bundle : Bundle) (descriptor : String) : Bool :=
  bundle.classes.any fun record => record.descriptor = descriptor

def add (bundle : Bundle) (record : ClassRecord) : Except Error Bundle :=
  if bundle.defines record.descriptor then .error (.duplicateClass record.descriptor)
  else .ok { bundle with classes := bundle.classes ++ [record] }

end Bundle

end LiveDex
