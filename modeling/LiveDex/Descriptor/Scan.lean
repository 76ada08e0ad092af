import LiveDex.Bytes
import LiveDex.Descriptor

/-!
Counting registers in the bytes of a method descriptor. The scan goes over the bytes of the
parameter list by offsets, and cuts each type it checks out of the text between two of them. An
offset may lie behind the end or inside a character, so reading a byte and cutting the text can go
wrong, and an offset that stays where it is would keep the scan from ending.
-/
namespace LiveDex.Descriptor.Scan

inductive Fault where
  /-- A byte was read at an offset behind the last one. -/
  | outOfBounds (offset : Nat)
  /-- The text was cut at an offset inside a character or behind the end. -/
  | splitCharacter (offset : Nat)
  /-- A step ended no further than it had started. -/
  | stalled (offset : Nat)
  deriving DecidableEq, Repr

def utf8 (chars : List Char) : Bytes :=
  chars.flatMap String.utf8EncodeChar

def byteAt (bytes : Bytes) (offset : Nat) : Except Fault UInt8 :=
  match bytes[offset]? with
  | some byte => .ok byte
  | none => .error (.outOfBounds offset)

/-- The characters in front of an offset and those behind it, if it is between two characters. -/
def splitAt? : Nat → List Char → Option (List Char × List Char)
  | 0, chars => some ([], chars)
  | _ + 1, [] => none
  | offset + 1, c :: chars =>
    if c.utf8Size ≤ offset + 1 then
      match splitAt? (offset + 1 - c.utf8Size) chars with
      | some (front, back) => some (c :: front, back)
      | none => none
    else none

def cutFrom (text : List Char) (start : Nat) : Except Fault (List Char) :=
  match splitAt? start text with
  | some (_, back) => .ok back
  | none => .error (.splitCharacter start)

def cut (text : List Char) (start stop : Nat) : Except Fault (List Char) :=
  match splitAt? stop text with
  | some (front, _) => cutFrom front start
  | none => .error (.splitCharacter stop)

/-- Offset of the first such character. -/
def find? (c : Char) (text : List Char) : Option Nat :=
  if text.contains c then some (utf8 (text.takeWhile (· != c))).length else none

/-- Offset behind the brackets that stand at the given one. -/
def skipBrackets (bytes : Bytes) (offset : Nat) : Except Fault Nat := do
  if offset < bytes.length then
    let byte ← byteAt bytes offset
    if byte = 0x5b then skipBrackets bytes (offset + 1) else return offset
  else return offset
termination_by bytes.length - offset

/-- Offset behind the base type that starts with the given byte: the one behind the next `;` for a
class name, and the next one for all others. -/
def endOfBase (params : List Char) (byte : UInt8) (offset : Nat) : Except Fault (Option Nat) := do
  if byte = 0x4c then
    let tail ← cutFrom params offset
    return (find? ';' tail).map (· + offset + 1)
  else return some (offset + 1)

/-- Where the next type starts, and the registers of those in front of it. -/
structure Cursor where
  offset : Nat
  registers : Nat
  deriving DecidableEq, Repr

/-- Passes over one type; nothing is left to do if the parameter list is malformed there. -/
def step (params : List Char) (cursor : Cursor) : Except Fault (Option Cursor) := do
  let start ← skipBrackets (utf8 params) cursor.offset
  match (utf8 params)[start]? with
  | none => return none
  | some byte =>
    if 0x80 ≤ byte then return none
    else
      match ← endOfBase params byte start with
      | none => return none
      | some stop =>
        let type ← cut params cursor.offset stop
        let isWide := cursor.offset + 1 = stop && (byte = 0x4a || byte = 0x44)
        let registers := cursor.registers + if isWide then 2 else 1
        if isValueType type && registers < 65536 then return some ⟨stop, registers⟩
        else return none

/-- All steps from a cursor on. -/
def runFrom (params : List Char) (cursor : Cursor) : Except Fault (Option Nat) :=
  if cursor.offset < (utf8 params).length then
    match step params cursor with
    | .error fault => .error fault
    | .ok none => .ok none
    | .ok (some next) =>
      if cursor.offset < next.offset then runFrom params next
      else .error (.stalled cursor.offset)
  else .ok (some cursor.registers)
termination_by (utf8 params).length - cursor.offset

/-- Registers taken by the declared parameters, or nothing if the descriptor is malformed. -/
def parameterRegisters (text : String) : Except Fault (Option UInt16) := do
  match text.toList with
  | '(' :: rest =>
    match rest.dropWhile (· != ')') with
    | _ :: returned =>
      if isType returned then
        let registers ← runFrom (rest.takeWhile (· != ')')) ⟨0, 0⟩
        return registers.map Nat.toUInt16
      else return none
    | [] => return none
  | _ => return none

end LiveDex.Descriptor.Scan
