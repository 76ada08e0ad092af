import LiveDex.Settings.Decimal

/-!
Scanning JSON text from left to right, one pass, stopping at the first problem. Text that ends
too early, text that is no JSON, and JSON of a shape that is not wanted are told apart. Strings
and numbers that are wanted are read in full; those that are skipped are held to the grammar only.
-/
namespace LiveDex.Settings

inductive Problem where
  | endOfText
  | malformed
  | wrongShape
  deriving DecidableEq, Repr

namespace Scan

def isBlank (c : Char) : Bool :=
  c = ' ' || c = '\n' || c = '\t' || c = '\r'

def skipBlank (text : List Char) : List Char :=
  text.dropWhile isBlank

/-- What follows the given letters, which must come next. -/
def letters : List Char → List Char → Except Problem (List Char)
  | [], text => .ok text
  | _ :: _, [] => .error .endOfText
  | expected :: more, c :: rest => if c = expected then letters more rest else .error .malformed

def hexDigit? (c : Char) : Option Nat :=
  if '0' ≤ c && c ≤ '9' then some (c.toNat - '0'.toNat)
  else if 'a' ≤ c && c ≤ 'f' then some (c.toNat - 'a'.toNat + 10)
  else if 'A' ≤ c && c ≤ 'F' then some (c.toNat - 'A'.toNat + 10)
  else none

/-- The unit in the four digits behind `\u`. Text with fewer than four bytes left counts as
ended. -/
def hexUnit (text : List Char) : Except Problem Nat :=
  let next := text.take 4
  if (String.ofList next).utf8ByteSize < 4 then .error .endOfText
  else
    match next.mapM hexDigit? with
    | some digits => .ok (digits.foldl (fun n d => n * 16 + d) 0)
    | none => .error .malformed

/-- The character of a pair of units whose first was `high` and whose second must come next. -/
def pairWith (high : Nat) : List Char → Except Problem Char
  | [] => .error .endOfText
  | '\\' :: [] => .error .endOfText
  | '\\' :: 'u' :: rest =>
    match hexUnit rest with
    | .error e => .error e
    | .ok low =>
      if 0xdc00 ≤ low && low ≤ 0xdfff then
        .ok (Char.ofNat (0x10000 + (high - 0xd800) * 1024 + (low - 0xdc00)))
      else .error .malformed
  | _ => .error .malformed

def simpleEscape? (c : Char) : Option Char :=
  if c = '"' || c = '\\' || c = '/' then some c
  else if c = 'b' then some '\x08'
  else if c = 'f' then some '\x0c'
  else if c = 'n' then some '\n'
  else if c = 'r' then some '\r'
  else if c = 't' then some '\t'
  else none

/-- The character that an escape stands for, behind the backslash, and how many characters the
escape takes there. -/
def escape : List Char → Except Problem (Char × Nat)
  | [] => .error .endOfText
  | c :: rest =>
    if c = 'u' then
      match hexUnit rest with
      | .error e => .error e
      | .ok unit =>
        if 0xd800 ≤ unit && unit ≤ 0xdbff then
          match pairWith unit (rest.drop 4) with
          | .error e => .error e
          | .ok shown => .ok (shown, 11)
        else if 0xdc00 ≤ unit && unit ≤ 0xdfff then .error .malformed
        else .ok (Char.ofNat unit, 5)
    else
      match simpleEscape? c with
      | some shown => .ok (shown, 1)
      | none => .error .malformed

/-- An escape in a string that is skipped: its units need not form characters. -/
def skipEscape : List Char → Except Problem (Char × Nat)
  | [] => .error .endOfText
  | c :: rest =>
    if c = 'u' then
      match hexUnit rest with
      | .error e => .error e
      | .ok _ => .ok (c, 5)
    else if (simpleEscape? c).isSome then .ok (c, 1)
    else .error .malformed

/-- A string behind its opening quote, whose first `pending` characters belong to an escape that
was read. The characters of the string so far are in `acc`, newest first. -/
def stringFrom (escaped : List Char → Except Problem (Char × Nat)) :
    Nat → List Char → List Char → Except Problem (List Char × List Char)
  | _, _, [] => .error .endOfText
  | pending + 1, acc, _ :: rest => stringFrom escaped pending acc rest
  | 0, acc, c :: rest =>
    if c = '"' then .ok (acc.reverse, rest)
    else if c = '\\' then
      match escaped rest with
      | .error e => .error e
      | .ok (shown, taken) => stringFrom escaped taken (shown :: acc) rest
    else if c.toNat < 0x20 then .error .malformed
    else stringFrom escaped 0 (c :: acc) rest

def string (text : List Char) : Except Problem (List Char × List Char) :=
  stringFrom escape 0 [] text

def skipString (text : List Char) : Except Problem (List Char) :=
  match stringFrom skipEscape 0 [] text with
  | .error e => .error e
  | .ok (_, rest) => .ok rest

/-- A run of digits, which must not be empty. -/
def digits (ended : Problem) (text : List Char) : Except Problem (List Char × List Char) :=
  match text with
  | [] => .error ended
  | c :: _ =>
    if c.isDigit then .ok (text.takeWhile Char.isDigit, text.dropWhile Char.isDigit)
    else .error .malformed

/-- Digits of a whole part, which has no leading zero unless it is zero. -/
def wholePart (ended : Problem) (text : List Char) : Except Problem (List Char × List Char) :=
  match digits ended text with
  | .error e => .error e
  | .ok (ds, rest) =>
    if ds.head? = some '0' && 1 < ds.length then .error .malformed else .ok (ds, rest)

def fraction (ended : Problem) : List Char → Except Problem (List Char × List Char)
  | '.' :: rest => digits ended rest
  | text => .ok ([], text)

/-- Digits of the exponent and whether it is negative. -/
def exponent (ended : Problem) : List Char → Except Problem ((Bool × List Char) × List Char)
  | [] => .ok ((false, []), [])
  | c :: rest =>
    if c = 'e' || c = 'E' then
      let negative := rest.head? = some '-'
      let unsigned := if negative || rest.head? = some '+' then rest.drop 1 else rest
      match digits ended unsigned with
      | .error e => .error e
      | .ok (ds, behind) => .ok ((negative, ds), behind)
    else .ok ((false, []), c :: rest)

/-- The digits of a number, part by part. -/
structure NumberParts where
  whole : List Char
  fraction : List Char
  negativeExponent : Bool
  exponent : List Char

def NumberParts.toDecimal (parts : NumberParts) : Decimal :=
  ((Decimal.wholeFrom 0 parts.whole).addFraction parts.fraction).scale
    parts.negativeExponent parts.exponent

/-- The parts of a number behind its sign. What ends too early is reported as `ended` says. -/
def number (ended : Problem) (text : List Char) :
    Except Problem (NumberParts × List Char) :=
  match wholePart ended text with
  | .error e => .error e
  | .ok (whole, rest) =>
    match fraction ended rest with
    | .error e => .error e
    | .ok (frac, rest) =>
      match exponent ended rest with
      | .error e => .error e
      | .ok ((negative, exp), rest) => .ok (⟨whole, frac, negative, exp⟩, rest)

def skipNumber (text : List Char) : Except Problem (List Char) :=
  match number .malformed text with
  | .error e => .error e
  | .ok (_, rest) => .ok rest

/-- A number is never wanted; one that is out of range counts as malformed. -/
def numberProblem (text : List Char) : Problem :=
  match number .endOfText text with
  | .error e => e
  | .ok (parts, _) => if parts.toDecimal.isOutOfRange then .malformed else .wrongShape

def settled {α : Type} : Except Problem α → Problem
  | .error e => e
  | .ok _ => .wrongShape

/-- What is reported where a value of another shape begins: simple values are read to their end
first, lists and objects are not. -/
def unwanted : List Char → Problem
  | [] => .endOfText
  | c :: rest =>
    if c = 'n' then settled (letters ['u', 'l', 'l'] rest)
    else if c = 't' then settled (letters ['r', 'u', 'e'] rest)
    else if c = 'f' then settled (letters ['a', 'l', 's', 'e'] rest)
    else if c = '-' then numberProblem rest
    else if c.isDigit then numberProblem (c :: rest)
    else if c = '"' then settled (string rest)
    else if c = '[' || c = '\x7b' then .wrongShape
    else .malformed

/-- What a skipped value is nested in. -/
inductive Frame where
  | list
  | object
  deriving DecidableEq

def Frame.closer : Frame → Char
  | .list => ']'
  | .object => '\x7d'

/-- Where skipping stands: before a value, behind an opening bracket, or behind a value. -/
inductive Stage where
  | value
  | opened
  | behind

/-- A key and its colon, for the next value of an object. -/
def skipKey (text : List Char) : Except Problem (List Char) :=
  match skipBlank text with
  | [] => .error .endOfText
  | c :: rest =>
    if c = '"' then
      match skipString rest with
      | .error e => .error e
      | .ok rest =>
        match skipBlank rest with
        | [] => .error .endOfText
        | c :: rest => if c = ':' then .ok rest else .error .malformed
    else .error .malformed

def skipEntry (frame : Frame) (text : List Char) : Except Problem (List Char) :=
  match frame with
  | .list => .ok text
  | .object => skipKey text

/-- Skips in at most the given number of steps. The frames that are open are listed from the
innermost on. -/
def skipFrom : Nat → Stage → List Frame → List Char → Except Problem (List Char)
  | 0, _, _, _ => .error .endOfText
  | n + 1, .value, frames, text =>
    match skipBlank text with
    | [] => .error .endOfText
    | c :: rest =>
      let simple (scanned : Except Problem (List Char)) : Except Problem (List Char) :=
        match scanned with
        | .error e => .error e
        | .ok rest => skipFrom n .behind frames rest
      if c = 'n' then simple (letters ['u', 'l', 'l'] rest)
      else if c = 't' then simple (letters ['r', 'u', 'e'] rest)
      else if c = 'f' then simple (letters ['a', 'l', 's', 'e'] rest)
      else if c = '-' then simple (skipNumber rest)
      else if c.isDigit then simple (skipNumber (c :: rest))
      else if c = '"' then simple (skipString rest)
      else if c = '[' then skipFrom n .opened (.list :: frames) rest
      else if c = '\x7b' then skipFrom n .opened (.object :: frames) rest
      else .error .malformed
  | _ + 1, _, [], text => .ok text
  | n + 1, stage, frame :: frames, text =>
    let enter (text : List Char) : Except Problem (List Char) :=
      match skipEntry frame text with
      | .error e => .error e
      | .ok rest => skipFrom n .value (frame :: frames) rest
    match skipBlank text with
    | [] => .error .endOfText
    | c :: rest =>
      if c = frame.closer then skipFrom n .behind frames rest
      else
        match stage with
        | .opened => enter (c :: rest)
        | _ => if c = ',' then enter rest else .error .malformed

/-- Skips one value. No character takes more than two steps. -/
def skip (text : List Char) : Except Problem (List Char) :=
  skipFrom (2 * text.length + 2) .value [] text

end Scan

end LiveDex.Settings
