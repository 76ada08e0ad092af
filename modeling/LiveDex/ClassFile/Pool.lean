import LiveDex.ClassFile.Error
import LiveDex.Text.ModifiedUtf8

/-!
The constant pool. Slot 0 and the second slot of a long or double are unusable; every other slot
holds the constant with that index. A pool whose references are sound may be followed from any
constant without meeting an unusable slot or a constant of the wrong kind.
-/
namespace LiveDex.ClassFile

structure Pool where
  slots : Array (Option (Constant String))
  deriving DecidableEq, Repr

namespace Pool

/-- Number of slots, slot 0 included. -/
def size (pool : Pool) : Nat :=
  pool.slots.size

def isEmpty (pool : Pool) : Bool :=
  pool.size ≤ 1

def get? (pool : Pool) (index : UInt16) : Option (Constant String) :=
  (pool.slots[index.toNat]?).join

def get (pool : Pool) (index : UInt16) : Except Error (Constant String) :=
  match pool.get? index with
  | some c => .ok c
  | none => .error (.invalidIndex index)

def text (pool : Pool) (index : UInt16) : Except Error String :=
  match pool.get index with
  | .error e => .error e
  | .ok (.utf8 text) => .ok text
  | .ok _ => .error (.unexpectedKind index .utf8)

def className (pool : Pool) (index : UInt16) : Except Error String :=
  match pool.get index with
  | .error e => .error e
  | .ok (.classRef name) => pool.text name
  | .ok _ => .error (.unexpectedKind index .classRef)

/-- Usable slots with their indices, in increasing order. -/
def entries (pool : Pool) : List (UInt16 × Constant String) :=
  pool.slots.toList.zipIdx.filterMap fun (slot, index) =>
    slot.map fun c => (index.toUInt16, c)

/-- What is wrong with a reference, if anything is. -/
def fault? (pool : Pool) (reference : UInt16 × Option Kind) : Option Error :=
  match pool.get reference.1, reference.2 with
  | .error e, _ => some e
  | .ok c, some expected =>
    if c.kind = expected then none else some (.unexpectedKind reference.1 expected)
  | .ok _, none => none

/-- Every reference, by the index of the constant that holds it. -/
def references (pool : Pool) : List (UInt16 × Option Kind) :=
  pool.entries.flatMap fun entry => entry.2.references

def checkReferences (pool : Pool) : Except Error Unit :=
  match pool.references.findSome? pool.fault? with
  | some e => .error e
  | none => .ok ()

end Pool

/-- A constant behind its tag byte. -/
def Constant.readBody : Kind → Reader Error (Constant Bytes)
  | .utf8 => do
    let length ← .word16 .big
    return .utf8 (← .take length.toNat)
  | .integer => return .integer (← .word32 .big).toInt32
  | .float => return .float (← .word32 .big)
  | .long => return .long (← .word64 .big).toInt64
  | .double => return .double (← .word64 .big)
  | .classRef => return .classRef (← .word16 .big)
  | .stringRef => return .stringRef (← .word16 .big)
  | .fieldRef => return .fieldRef (← .word16 .big) (← .word16 .big)
  | .methodRef => return .methodRef (← .word16 .big) (← .word16 .big)
  | .interfaceMethodRef => return .interfaceMethodRef (← .word16 .big) (← .word16 .big)
  | .nameAndType => return .nameAndType (← .word16 .big) (← .word16 .big)
  | .methodHandle => return .methodHandle (← .byte) (← .word16 .big)
  | .methodType => return .methodType (← .word16 .big)
  | .dynamic => return .dynamic (← .word16 .big) (← .word16 .big)
  | .invokeDynamic => return .invokeDynamic (← .word16 .big) (← .word16 .big)
  | .moduleRef => return .moduleRef (← .word16 .big)
  | .packageRef => return .packageRef (← .word16 .big)

/-- The constant for the slot with the given index. -/
def Constant.read (index : UInt16) : Reader Error (Constant String) := do
  let tag ← .byte
  match Kind.ofTag? tag with
  | none => .fail (.invalidTag index tag)
  | some kind =>
    match (← Constant.readBody kind).mapText? Text.ofClassFileBytes? with
    | none => .fail (.invalidText index)
    | some c => return c

/-- Fills the `remaining` last slots of a pool, of which the next has the given index. -/
def Pool.readFrom : Nat → UInt16 → Array (Option (Constant String)) → Reader Error Pool
  | 0, _, slots => fun cursor => .ok (⟨slots⟩, cursor)
  | remaining + 1, index, slots => fun cursor =>
    match Constant.read index cursor with
    | .error e => .error e
    | .ok (c, behind) =>
      if c.isWide then
        match remaining with
        | 0 => .error (.invalidIndex (index + 1))
        | remaining + 1 => readFrom remaining (index + 2) ((slots.push (some c)).push none) behind
      else readFrom remaining (index + 1) (slots.push (some c)) behind

/-- A pool that declares `count` slots starts with slot 1. -/
def Pool.read : Reader Error Pool := do
  let count ← .word16 .big
  Pool.readFrom (count.toNat - 1) 1 #[none]

end LiveDex.ClassFile
