import LiveDex.Container.Decode
import LiveDex.Container.Description
import LiveDex.Container.Encode
import LiveDex.Settings.Basic
import LiveDex.Workspace

/-!
Staging a bundle: its container is written to a new file in the staging root, and the path of the
optimized file that a loader will make of it is derived from the name of that file. The name has
a part of its own for each staging, which is given from outside.
-/
namespace LiveDex.Staging

def rawStart : String := "repl-"

def optimizedStart : String := "repl-opt-"

def fileEnding : String := ".dex"

/-- The name of a staged file with the given part of its own. -/
def rawName (tag : String) : String :=
  rawStart ++ tag ++ fileEnding

/-- The optimized file for a staged one keeps what is behind the start of its name. -/
def optimizedName (raw : String) : String :=
  if rawStart.toList.isPrefixOf raw.toList then
    optimizedStart ++ String.ofList (raw.toList.drop rawStart.length)
  else optimizedStart ++ raw

structure Artifact where
  rawPath : String
  optimizedPath : String
  deriving DecidableEq, Repr

inductive Error where
  | notConfigured
  | encode (cause : Container.EncodeError)
  | emptyRoot
  /-- The file at `attempted` could not be created. -/
  | create (root attempted : String) (cause : Volume.Error)
  deriving DecidableEq, Repr

/-- The text of what stopped a file from being made, which names the file. -/
def createText (attempted : String) (cause : Volume.Error) : String :=
  cause.message ++ " at path " ++ Text.quoted attempted

def emptyRootText : String := "cannot make an empty path absolute"

def failureAt (path text : String) : String :=
  s!"staging i/o failure at '{path}': {text}"

def Error.message : Error → String
  | .notConfigured => "staging directory is not configured"
  | .encode cause => "failed to serialize container: " ++ cause.message
  | .emptyRoot => failureAt "" emptyRootText
  | .create root attempted cause => failureAt root (createText attempted cause)

def Error.causes : Error → List String
  | .notConfigured => []
  | .encode cause => [cause.message]
  | .emptyRoot => [emptyRootText]
  | .create _ attempted cause => [createText attempted cause]

/-- The staging root is the compile path, taken from the directory `current` if it is relative. -/
def root (current path : String) : Except Error String :=
  match Path.absolute? current path with
  | some root => .ok root
  | none => .error .emptyRoot

def rootOf (current : String) (settings : Settings) : Except Error String :=
  match settings.compilePath with
  | none => .error .notConfigured
  | some path => root current path

def stage (root tag : String) (bundle : Bundle) : Action Error Artifact := do
  let bytes ← Action.ofExcept (bundle.encode.mapError .encode)
  if let .ok tables := Container.Tables.decode bytes then
    Action.log (.described tables.describe)
  let rawPath := Path.push root (rawName tag)
  Action.mapError (.create root rawPath) (Action.createFile rawPath bytes)
  Action.log (.staged bytes.length bundle.classes.length rawPath)
  return ⟨rawPath, Path.push root (optimizedName (rawName tag))⟩

end LiveDex.Staging
