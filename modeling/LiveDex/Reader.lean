import LiveDex.Bytes

/-!
Readers walk over a byte string from left to right. A reader either fails with an error of the
format it belongs to, or returns a value and the cursor behind the bytes it used up. The cursor
counts its offset from the start, since some formats report where the input ended.
-/
namespace LiveDex

structure Cursor where
  offset : Nat
  rest : Bytes

/-- How a format reports input that ends inside an item which starts at the given offset. -/
class EndOfInput (ε : Type) where
  endedAt : Nat → ε

def Reader (ε α : Type) : Type := Cursor → Except ε (α × Cursor)

namespace Reader

variable {ε α β : Type}

@[inline]
protected def pure (a : α) : Reader ε α :=
  fun c => .ok (a, c)

@[inline]
protected def bind (r : Reader ε α) (f : α → Reader ε β) : Reader ε β :=
  fun c =>
    match r c with
    | .error e => .error e
    | .ok (a, c') => f a c'

instance : Monad (Reader ε) where
  pure := Reader.pure
  bind := Reader.bind

@[inline]
def fail (e : ε) : Reader ε α :=
  fun _ => .error e

@[inline]
def ofExcept (x : Except ε α) : Reader ε α :=
  fun c =>
    match x with
    | .error e => .error e
    | .ok a => .ok (a, c)

instance : MonadLift (Except ε) (Reader ε) where
  monadLift := ofExcept

def offset : Reader ε Nat :=
  fun c => .ok (c.offset, c)

def atEnd : Reader ε Bool :=
  fun c => .ok (c.rest.isEmpty, c)

/-- Exactly `n` bytes. -/
def take [EndOfInput ε] (n : Nat) : Reader ε Bytes :=
  fun c =>
    let taken := c.rest.take n
    if taken.length = n then .ok (taken, ⟨c.offset + n, c.rest.drop n⟩)
    else .error (EndOfInput.endedAt c.offset)

def byte [EndOfInput ε] : Reader ε UInt8 :=
  fun c =>
    match c.rest with
    | b :: rest => .ok (b, ⟨c.offset + 1, rest⟩)
    | [] => .error (EndOfInput.endedAt c.offset)

/-- The value of a word of `w` bytes. -/
def word [EndOfInput ε] (order : ByteOrder) (w : Nat) : Reader ε Nat := do
  return Bytes.toNat order (← take w)

def word16 [EndOfInput ε] (order : ByteOrder) : Reader ε UInt16 := do
  return (← word order 2).toUInt16

def word32 [EndOfInput ε] (order : ByteOrder) : Reader ε UInt32 := do
  return (← word order 4).toUInt32

def word64 [EndOfInput ε] (order : ByteOrder) : Reader ε UInt64 := do
  return (← word order 8).toUInt64

/-- Reads `n` more items behind those of `acc`, which holds the newest first. -/
def timesFrom (r : Reader ε α) (acc : List α) : Nat → Reader ε (List α)
  | 0 => fun c => .ok (acc.reverse, c)
  | n + 1 => fun c =>
    match r c with
    | .error e => .error e
    | .ok (a, c') => timesFrom r (a :: acc) n c'

def times (n : Nat) (r : Reader ε α) : Reader ε (List α) :=
  timesFrom r [] n

/-- Runs a reader from the start of a byte string of its own. -/
def run (r : Reader ε α) (bytes : Bytes) : Except ε (α × Cursor) :=
  r ⟨0, bytes⟩

end Reader

end LiveDex
