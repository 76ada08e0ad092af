import LiveDex.Log.Basic
import LiveDex.Text.Numeral

/-!
Setting up the log: whether lines are coloured, and which events are written. A filter is a list
of directives with commas between them, each a level for everything or for one target. The
environment may name a filter; if it does not, or if that filter cannot be read, a given one is
used.
-/
namespace LiveDex.Log

/-- What the log takes from the environment. -/
structure Environment where
  noColor : Option String := none
  forceColor : Option String := none
  cliColorForce : Option String := none
  filter : Option String := none

/-- Lines do not go to a terminal, so they are coloured only on demand. -/
def Environment.colored (env : Environment) : Bool :=
  env.noColor.isNone
    && (env.forceColor.isSome || env.cliColorForce.any fun value => value ≠ "0")

/-- The target of all events of this library. -/
def target : String := "dexbridge"

def defaultDirective : String := "info"

/-- Levels up to which events are written; no level at all when off. -/
def threshold? (text : String) : Option Nat :=
  let lower := text.map Char.toLower
  let names := ["off", "error", "warn", "info", "debug", "trace"]
  let digits := ["0", "1", "2", "3", "4", "5"]
  match names.idxOf? lower with
  | some n => some n
  | none => digits.idxOf? lower

/-- The threshold for targets that start with the given text. -/
structure Directive where
  forTarget : String := ""
  threshold : Nat

abbrev Filter := List Directive

/-- A directive names no level behind its equals sign. -/
structure FilterError where
  deriving DecidableEq, Repr

def FilterError.message (_ : FilterError) : String :=
  "error parsing level filter: expected one of \"off\", \"error\", \"warn\", \"info\", " ++
    "\"debug\", \"trace\", or a number 0-5"

/-- A bare name that is no level turns everything on for that target. -/
def Directive.parse (text : String) : Except FilterError Directive :=
  let chars := text.toList
  let name := String.ofList (chars.takeWhile (· != '='))
  match chars.dropWhile (· != '=') with
  | [] =>
    match threshold? name with
    | some threshold => .ok { threshold }
    | none => .ok { forTarget := name, threshold := Level.trace.verbosity }
  | _ :: level =>
    match threshold? (String.ofList level) with
    | some threshold => .ok { forTarget := name, threshold }
    | none => .error {}

/-- Texts between commas, without empty ones. -/
def commaParts (text : String) : List String :=
  let step (c : Char) : List (List Char) → List (List Char)
    | [] => [[c]]
    | part :: parts => if c = ',' then [] :: part :: parts else (c :: part) :: parts
  ((text.toList.foldr step [[]]).map String.ofList).filter fun part => part ≠ ""

/-- A filter without directives lets errors through. -/
def Filter.parse (text : String) : Except FilterError Filter :=
  match (commaParts text).mapM Directive.parse with
  | .error e => .error e
  | .ok [] => .ok [{ threshold := Level.error.verbosity }]
  | .ok directives => .ok directives

/-- The directive with the longest matching target decides, and of equally long ones the last. -/
def Filter.threshold (filter : Filter) : Nat :=
  let fits := filter.filter fun d => d.forTarget.toList.isPrefixOf target.toList
  let best := fits.foldl
    (fun found d =>
      match found with
      | none => some d
      | some e => if e.forTarget.length ≤ d.forTarget.length then some d else some e)
    none
  (best.map (·.threshold)).getD 0

def Environment.chosenFilter (env : Environment) (directive : String) :
    Except FilterError Filter :=
  match env.filter.map Filter.parse with
  | some (.ok filter) => .ok filter
  | _ => Filter.parse directive

inductive SetupError where
  | filter (cause : FilterError)
  | alreadySet
  deriving DecidableEq, Repr

def SetupError.message : SetupError → String
  | .filter cause => cause.message
  | .alreadySet => "a global default trace dispatcher has already been set"

/-- A log that was set up. -/
structure Sink where
  threshold : Nat
  colored : Bool

/-- Sets up the log unless `current` is in use already. -/
def setUp (env : Environment) (directive : String) (current : Option Sink) :
    Except SetupError Sink :=
  match env.chosenFilter directive, current with
  | .error e, _ => .error (.filter e)
  | .ok _, some _ => .error .alreadySet
  | .ok filter, none => .ok ⟨filter.threshold, env.colored⟩

def Sink.enabled (sink : Sink) (level : Level) : Bool :=
  level.verbosity ≤ sink.threshold

/-- A terminal escape with the given parameter. -/
def ansi (code : String) : String :=
  "\x1b[" ++ code ++ "m"

def Category.color : Category → String
  | .define => "92"
  | .stage => "96"
  | .load => "95"

/-- Labels are bold and bright where colours are wanted. -/
def Category.display (category : Category) (colored : Bool) : String :=
  if colored then
    ansi "1" ++ ansi category.color ++ category.label ++ ansi "39" ++ ansi "0"
  else category.label

def Level.color : Level → String
  | .error => "31"
  | .warn => "33"
  | .info => "32"
  | .debug => "34"
  | .trace => "35"

/-- Levels are set to the right in five columns. -/
def Level.padded (level : Level) : String :=
  String.ofList (List.replicate (5 - level.label.length) ' ') ++ level.label

/-- Controls that a terminal would act on are written out. -/
def visibleChar (c : Char) : String :=
  let n := c.toNat
  if n = 0x1b || n = 0x07 || n = 0x08 || n = 0x0c || n = 0x7f then "\\x" ++ Text.hex 2 n
  else if 0x80 ≤ n && n ≤ 0x9f then "\\u\x7b" ++ Text.hex 1 n ++ "\x7d"
  else c.toString

def visible (text : String) : String :=
  String.join (text.toList.map visibleChar)

/-- The line that is written for an event, if any. -/
def Sink.line? (sink : Sink) (time : String) (event : Event) : Option String :=
  if sink.enabled event.level then
    let message := visible (event.category.display sink.colored ++ " " ++ event.text)
    if sink.colored then
      some (ansi "2" ++ time ++ ansi "0" ++ " " ++ ansi event.level.color ++ event.level.padded
        ++ ansi "0" ++ " " ++ message)
    else some (time ++ " " ++ event.level.padded ++ " " ++ message)
  else none

end LiveDex.Log
