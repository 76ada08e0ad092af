/-!
Log events: what happened while classes were defined, staged and loaded. Each has a level, and
levels are ordered from the most severe on; each belongs to a stage of the work, whose label
opens its message.
-/
namespace LiveDex.Log

inductive Level where
  | error
  | warn
  | info
  | debug
  | trace
  deriving DecidableEq, Repr

namespace Level

def all : List Level := [.error, .warn, .info, .debug, .trace]

def label : Level → String
  | .error => "ERROR"
  | .warn => "WARN"
  | .info => "INFO"
  | .debug => "DEBUG"
  | .trace => "TRACE"

/-- Higher for less severe levels. -/
def verbosity : Level → Nat
  | .error => 1
  | .warn => 2
  | .info => 3
  | .debug => 4
  | .trace => 5

end Level

inductive Category where
  | define
  | stage
  | load
  deriving DecidableEq, Repr

def Category.all : List Category := [.define, .stage, .load]

def Category.label : Category → String
  | .define => "DEFINE"
  | .stage => "STAGE"
  | .load => "LOAD"

/-- How messages name an image. -/
def imageLabel (number : Nat) : String :=
  s!"image#{number}"

inductive Event where
  | described (description : String)
  | staged (size classCount : Nat) (path : String)
  | opened (image : Nat) (path : String) (classCount : Nat)
  | loaded (rawPath optimizedPath : String)
  | defined (name loader imagePath : String)
  | notDefined (name : String) (sourceForm : Option String) (reason : String)
  deriving DecidableEq, Repr

namespace Event

def level : Event → Level
  | .described .. => .trace
  | .staged .. => .debug
  | .opened .. => .debug
  | .loaded .. => .debug
  | .defined .. => .info
  | .notDefined .. => .warn

def category : Event → Category
  | .described .. => .stage
  | .staged .. => .stage
  | .opened .. => .load
  | .loaded .. => .load
  | .defined .. => .define
  | .notDefined .. => .define

def text : Event → String
  | .described description => "container layout:\n" ++ description
  | .staged size classCount path => s!"wrote {size} bytes ({classCount} classes) to {path}"
  | .opened image path classCount =>
    "opened image " ++ imageLabel image ++ s!" from {path} ({classCount} classes)"
  | .loaded rawPath optimizedPath => s!"loaded {rawPath} via {optimizedPath}"
  | .defined name loader imagePath => s!"defined {name} in loader {loader} from {imagePath}"
  | .notDefined name sourceForm reason =>
    let form := sourceForm.getD "<none>"
    s!"failed to define class {name} (source form: {form}): {reason}"

/-- The message of an event with its label in plain letters. -/
def message (event : Event) : String :=
  event.category.label ++ " " ++ event.text

end Event

/-- Events that are at least as severe as the given level, in order. -/
def upTo (level : Level) (events : List Event) : List Event :=
  events.filter fun event => event.level.verbosity ≤ level.verbosity

end LiveDex.Log
