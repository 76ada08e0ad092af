/-!
The forms of a class name: qualified with dots, internal with slashes, the descriptor of the
class type, and the path of its class file. A descriptor that is not of class form stands for
itself when its internal name is asked for.
-/
namespace LiveDex.ClassName

/-- Internal name of a qualified one. -/
def internal (qualified : String) : String :=
  qualified.map fun c => if c = '.' then '/' else c

/-- Qualified name of an internal one. -/
def dotted (internalName : String) : String :=
  internalName.map fun c => if c = '/' then '.' else c

/-- Descriptor of the class with an internal name. -/
def descriptorOf (internalName : String) : String :=
  "L" ++ internalName ++ ";"

def descriptor (qualified : String) : String :=
  descriptorOf (internal qualified)

def filePath (qualified : String) : String :=
  internal qualified ++ ".class"

/-- What stands between the `L` and the last `;` of a class descriptor. -/
def ofDescriptor? (descriptor : String) : Option String :=
  match descriptor.toList with
  | 'L' :: rest =>
    if rest.getLast? = some ';' then some (String.ofList rest.dropLast) else none
  | _ => none

/-- Internal name of a class descriptor, and any other text as it is. -/
def ofDescriptor (descriptor : String) : String :=
  (ofDescriptor? descriptor).getD descriptor

end LiveDex.ClassName
