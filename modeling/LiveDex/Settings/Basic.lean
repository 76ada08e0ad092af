import LiveDex.Settings.Scan
import LiveDex.Text.Numeral

/-!
Settings. There is one of them, the path under which containers are staged, and it may be left
unset. Settings are read from JSON, as an object or as a list of their values, or taken from the
environment, where an empty value counts as unset.
-/
namespace LiveDex

structure Settings where
  compilePath : Option String := none
  deriving DecidableEq, Repr

namespace Settings

/-- The variable of the environment that holds the compile path. -/
def variableName : String := "DEXBRIDGE_COMPILE_PATH"

def key : String := "compile_path"

def ofEnvironment (value : Option String) : Settings where
  compilePath := value.filter fun path => !path.isEmpty

/-- A path or `null`. -/
def readPath (text : List Char) : Except Problem (Option String × List Char) :=
  match Scan.skipBlank text with
  | 'n' :: rest =>
    match Scan.letters ['u', 'l', 'l'] rest with
    | .error e => .error e
    | .ok rest => .ok (none, rest)
  | '"' :: rest =>
    match Scan.string rest with
    | .error e => .error e
    | .ok (path, rest) => .ok (some (String.ofList path), rest)
  | other => .error (Scan.unwanted other)

/-- The value behind a key, of which `found` holds the path if it was met before. -/
def readEntry (found : Option (Option String)) (name : List Char) (text : List Char) :
    Except Problem (Option (Option String) × List Char) :=
  let isPath := String.ofList name = key
  if isPath && found.isSome then .error .wrongShape
  else
    match Scan.skipBlank text with
    | [] => .error .endOfText
    | c :: rest =>
      if c ≠ ':' then .error .malformed
      else if isPath then
        match readPath rest with
        | .error e => .error e
        | .ok (path, rest) => .ok (some path, rest)
      else
        match Scan.skip rest with
        | .error e => .error e
        | .ok rest => .ok (found, rest)

/-- Entries of an object up to its closing brace, at most `n` more of them. -/
def readObject : Nat → Bool → Option (Option String) → List Char →
    Except Problem (Settings × List Char)
  | 0, _, _, _ => .error .endOfText
  | n + 1, first, found, text =>
    let entry (text : List Char) : Except Problem (Settings × List Char) :=
      match text with
      | [] => .error .endOfText
      | c :: rest =>
        if c = '"' then
          match Scan.string rest with
          | .error e => .error e
          | .ok (name, rest) =>
            match readEntry found name rest with
            | .error e => .error e
            | .ok (found, rest) => readObject n false found rest
        else .error .malformed
    match Scan.skipBlank text with
    | [] => .error .endOfText
    | c :: rest =>
      if c = '\x7d' then .ok (⟨found.join⟩, rest)
      else if first then entry (c :: rest)
      else if c = ',' then entry (Scan.skipBlank rest)
      else .error .malformed

/-- A list holds the path or nothing. -/
def readList (text : List Char) : Except Problem (Settings × List Char) :=
  match Scan.skipBlank text with
  | [] => .error .endOfText
  | ']' :: rest => .ok ({}, rest)
  | other =>
    match readPath other with
    | .error e => .error e
    | .ok (path, rest) =>
      match Scan.skipBlank rest with
      | [] => .error .endOfText
      | c :: rest => if c = ']' then .ok (⟨path⟩, rest) else .error .malformed

def ofJson (text : String) : Except Problem Settings :=
  let value :=
    match Scan.skipBlank text.toList with
    | '[' :: rest => readList rest
    | '\x7b' :: rest => readObject (rest.length + 1) true none rest
    | other => .error (Scan.unwanted other)
  match value with
  | .error e => .error e
  | .ok (settings, rest) =>
    if (Scan.skipBlank rest).isEmpty then .ok settings else .error .malformed

def jsonChar (c : Char) : String :=
  if c = '"' then "\\\""
  else if c = '\\' then "\\\\"
  else if c = '\x08' then "\\b"
  else if c = '\x0c' then "\\f"
  else if c = '\n' then "\\n"
  else if c = '\r' then "\\r"
  else if c = '\t' then "\\t"
  else if c.toNat < 0x20 then "\\u" ++ Text.hex 4 c.toNat
  else c.toString

def jsonString (s : String) : String :=
  "\"" ++ String.join (s.toList.map jsonChar) ++ "\""

def toJson (settings : Settings) : String :=
  let value :=
    match settings.compilePath with
    | some path => jsonString path
    | none => "null"
  "\x7b" ++ jsonString key ++ ":" ++ value ++ "\x7d"

end Settings

end LiveDex
