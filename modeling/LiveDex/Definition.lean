import LiveDex.Loading
import LiveDex.Lowering
import LiveDex.Staging

/-!
Defining a class from class-file bytes: the bytes are lowered to a record, a bundle with that one
record is staged, the staged file is loaded, and the class is looked up in the image by the name
it was asked for. The first stage that fails gives the error, and staged files stay.
-/
namespace LiveDex.Definition

/-- What a definition needs besides the class: settings, the directory that relative paths start
from, a way to lower class files and a way to load staged files. -/
structure Setup where
  settings : Settings
  currentDirectory : String
  lowering : Lowering.Options → ClassSource → Except Lowering.Error ClassRecord := lower
  loader : LoadRequest → Action Loading.Error Image :=
    fun request => do return (← Loading.load request).toImage

structure Request where
  source : ClassSource
  /-- The form that the class was compiled from, for messages only. -/
  sourceForm : Option String := none
  /-- The name of the class loader that asks. -/
  loader : String
  /-- The part of its own in the name of the staged file. -/
  tag : String

inductive Error where
  | lowering (className : String) (cause : Lowering.Error)
  | staging (className : String) (cause : Staging.Error)
  | loading (className : String) (cause : Loading.Error)
  | resolution (cause : ResolutionError)
  deriving DecidableEq, Repr

def Error.message : Error → String
  | .lowering className cause => s!"failed to translate class {className}: " ++ cause.message
  | .staging className cause => s!"failed to stage class {className}: " ++ cause.message
  | .loading className cause => s!"failed to load class {className}: " ++ cause.message
  | .resolution cause => cause.message

def Error.causes : Error → List String
  | .lowering _ cause => cause.message :: cause.causes
  | .staging _ cause => cause.message :: cause.causes
  | .loading _ cause => cause.message :: cause.causes
  | .resolution cause => [cause.message]

/-- Failures that point at what was written here, not at the input or the surroundings. -/
def Error.isIntegrityFailure : Error → Bool
  | .resolution _ => true
  | _ => false

/-- The bundle that holds the record of one class. -/
def bundleFor (setup : Setup) (source : ClassSource) : Except Lowering.Error Bundle := do
  let options := Lowering.Options.pinned
  let record ← setup.lowering options source
  match ({ dialect := options.dialect } : Bundle).add record with
  | .ok bundle => return bundle
  | .error e => .error (.rejected e)

def run (setup : Setup) (request : Request) : Action Error ClassObject := do
  let name := request.source.name
  let root ← Action.mapError (.staging name)
    (Action.ofExcept (Staging.rootOf setup.currentDirectory setup.settings))
  let bundle ← Action.mapError (.lowering name)
    (Action.ofExcept (bundleFor setup request.source))
  let ⟨rawPath, optimizedPath⟩ ← Action.mapError (.staging name)
    (Staging.stage root request.tag bundle)
  let load : LoadRequest := ⟨rawPath, optimizedPath, 0⟩
  Action.noteRequest load
  let image ← Action.mapError (.loading name) (setup.loader load)
  Action.log (.loaded rawPath optimizedPath)
  Action.mapError .resolution (Action.ofExcept (image.resolve name request.loader))

/-- The event that tells how a definition ended. -/
def outcome (request : Request) : Except Error ClassObject → Log.Event
  | .ok object => .defined object.name object.definingLoader object.imagePath
  | .error e => .notDefined request.source.name request.sourceForm e.message

end Definition

/-- Defines a class and logs how that ended. -/
def define (setup : Definition.Setup) (request : Definition.Request) :
    Action Definition.Error ClassObject :=
  ExceptT.mk do
    let result ← (Definition.run setup request).run
    modify fun workspace =>
      { workspace with log := workspace.log ++ [Definition.outcome request result] }
    return result

end LiveDex
