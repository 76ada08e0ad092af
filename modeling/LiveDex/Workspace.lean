import LiveDex.Log.Basic
import LiveDex.Volume

/-!
What staging and loading work on: the files, the number of images opened so far, which gives each
image its own number, what loaders were asked for while classes were defined, and the events
logged so far. An action that fails leaves behind what it did before it failed.
-/
namespace LiveDex

/-- A raw file to load, where its optimized form shall be written, and flags for that form. -/
structure LoadRequest where
  rawPath : String
  optimizedPath : String
  flags : UInt32
  deriving DecidableEq, Repr

structure Workspace where
  files : Volume := {}
  imagesOpened : Nat := 0
  requests : List LoadRequest := []
  log : List Log.Event := []

abbrev Action (ε : Type) := ExceptT ε (StateM Workspace)

namespace Action

variable {ε δ α : Type}

def ofExcept (x : Except ε α) : Action ε α :=
  ExceptT.mk (pure x)

/-- Reports the errors of an action as errors of another kind. -/
def mapError (f : ε → δ) (action : Action ε α) : Action δ α :=
  ExceptT.mk do return (← action.run).mapError f

def log (event : Log.Event) : Action ε Unit :=
  modify fun workspace => { workspace with log := workspace.log ++ [event] }

def noteRequest (request : LoadRequest) : Action ε Unit :=
  modify fun workspace => { workspace with requests := workspace.requests ++ [request] }

/-- Reads a file as it is now. -/
def readFile (path : String) : Action Volume.Error Bytes := do
  ofExcept ((← get).files.read path)

/-- Writes a file that was not there before. -/
def createFile (path : String) (content : Bytes) : Action Volume.Error Unit := do
  let files ← ofExcept ((← get).files.createFile path content)
  modify fun workspace => { workspace with files }

/-- Images are numbered from one on. -/
def nextImage : Action ε Nat := do
  modify fun workspace => { workspace with imagesOpened := workspace.imagesOpened + 1 }
  return (← get).imagesOpened

end Action

end LiveDex
