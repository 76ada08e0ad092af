import LiveDex.Container.Decode
import LiveDex.Container.Optimized
import LiveDex.Container.Validation
import LiveDex.Image
import LiveDex.Workspace

/-!
Loading a container file. The raw file is verified first, then the optimized file is written and
verified in turn, and the image serves the classes of the optimized file.
-/
namespace LiveDex.Loading

inductive Error where
  | file (path : String) (cause : Volume.Error)
  | decode (path : String) (cause : Container.DecodeError)
  | validation (path : String) (cause : Container.ValidationError)
  | optimizedHeader (path : String)
  | rejected (reason : String)
  deriving DecidableEq, Repr

def Error.message : Error → String
  | .file path cause => s!"load i/o failure at '{path}': " ++ cause.message
  | .decode path cause => s!"invalid container '{path}': " ++ cause.message
  | .validation path cause => s!"container '{path}' failed verification: " ++ cause.message
  | .optimizedHeader path => s!"invalid optimized artifact header in '{path}'"
  | .rejected reason => s!"platform loader rejected container: {reason}"

def Error.causes : Error → List String
  | .file _ cause => [cause.message]
  | .decode _ cause => [cause.message]
  | .validation _ cause => [cause.message]
  | .optimizedHeader _ => []
  | .rejected _ => []

/-- The bundle in a container that was read from a path. -/
def verify (path : String) (bytes : Bytes) : Except Error Bundle :=
  match Container.Tables.decode bytes with
  | .error e => .error (.decode path e)
  | .ok tables =>
    match tables.resolve with
    | .error e => .error (.validation path e)
    | .ok bundle => .ok bundle

def wrapped (flags : UInt32) (container : Bytes) : Except Error Bytes :=
  if container.length < UInt32.size then .ok (Container.Optimized.wrap flags container)
  else .error (.rejected ("container too large: " ++ toString container.length))

def payload (path : String) (bytes : Bytes) : Except Error Bytes :=
  match Container.Optimized.payload? bytes with
  | some container => .ok container
  | none => .error (.optimizedHeader path)

def load (request : LoadRequest) : Action Error ContainerImage := do
  let raw ← Action.mapError (.file request.rawPath) (Action.readFile request.rawPath)
  let _ ← Action.ofExcept (verify request.rawPath raw)
  let path := request.optimizedPath
  let content ← Action.ofExcept (wrapped request.flags raw)
  Action.mapError (.file path) (Action.createFile path content)
  let optimized ← Action.mapError (.file path) (Action.readFile path)
  let container ← Action.ofExcept (payload path optimized)
  let bundle ← Action.ofExcept (verify path container)
  let number ← Action.nextImage
  let image := ContainerImage.ofBundle number path bundle
  Action.log (.opened number path image.size)
  return image

end LiveDex.Loading
