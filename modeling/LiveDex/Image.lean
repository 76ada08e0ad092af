import LiveDex.Bundle

/-!
Images and the classes found in them. An image answers look-ups by internal name on behalf of a
class loader. The images made of containers keep one record for each internal name.
-/
namespace LiveDex

structure ClassObject where
  name : String
  internalName : String
  descriptor : String
  superclass : Option String
  interfaces : List String
  accessFlags : UInt32
  fields : List FieldRecord
  methods : List MethodRecord
  sourceFile : Option String
  definingLoader : String
  imageNumber : Nat
  imagePath : String
  deriving DecidableEq, Repr

namespace ClassObject

/-- Qualified name of the class that a descriptor denotes. -/
def nameOf (descriptor : String) : String :=
  ClassName.dotted (ClassName.ofDescriptor descriptor)

def ofRecord (record : ClassRecord) (loader : String) (imageNumber : Nat) (imagePath : String) :
    ClassObject where
  name := nameOf record.descriptor
  internalName := record.internalName
  descriptor := record.descriptor
  superclass := record.superclass.map nameOf
  interfaces := record.interfaces.map nameOf
  accessFlags := record.accessFlags
  fields := record.fields
  methods := record.methods
  sourceFile := record.sourceFile
  definingLoader := loader
  imageNumber
  imagePath

/-- The first method of that name. -/
def method? (object : ClassObject) (name : String) : Option MethodRecord :=
  object.methods.find? fun method => method.name = name

/-- The first field of that name. -/
def field? (object : ClassObject) (name : String) : Option FieldRecord :=
  object.fields.find? fun field => field.name = name

end ClassObject

/-- An image as its users see it: where it lies, and the class for an internal name and the name
of a class loader. -/
structure Image where
  path : String
  find? : String → String → Option ClassObject

structure ContainerImage where
  number : Nat
  path : String
  dialect : Dialect
  classes : List (String × ClassRecord)

namespace ContainerImage

/-- Puts a record under its internal name, in place of any that was there. -/
def insert (classes : List (String × ClassRecord)) (record : ClassRecord) :
    List (String × ClassRecord) :=
  (record.internalName, record)
    :: classes.filter fun entry => entry.1 ≠ record.internalName

def ofBundle (number : Nat) (path : String) (bundle : Bundle) : ContainerImage :=
  ⟨number, path, bundle.dialect, bundle.classes.foldl insert []⟩

def size (image : ContainerImage) : Nat :=
  image.classes.length

def find? (image : ContainerImage) (internalName loader : String) : Option ClassObject :=
  (image.classes.lookup internalName).map fun record =>
    .ofRecord record loader image.number image.path

def toImage (image : ContainerImage) : Image :=
  ⟨image.path, image.find?⟩

end ContainerImage

/-- Failures to find a class in an image that was opened without trouble. -/
inductive ResolutionError where
  | classNotFound (name internalName imagePath : String)
  | nameMismatch (requested resolved : String)
  deriving DecidableEq, Repr

def ResolutionError.message : ResolutionError → String
  | .classNotFound name internalName imagePath =>
    s!"failed to load generated class {name} ({internalName}) from '{imagePath}'"
  | .nameMismatch requested resolved =>
    s!"requested class {requested} but image resolved {resolved}"

/-- Finds the class of a qualified name; what is found must have that very name. -/
def Image.resolve (image : Image) (name loader : String) :
    Except ResolutionError ClassObject :=
  match image.find? (ClassName.internal name) loader with
  | none => .error (.classNotFound name (ClassName.internal name) image.path)
  | some object =>
    if object.name = name then .ok object else .error (.nameMismatch name object.name)

end LiveDex
