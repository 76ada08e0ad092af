/-!
Byte strings and the fixed-width words laid out in them. A word of `w` bytes holds the `w` low
bytes of a natural number, least significant first in the little order and most significant
first in the big order. Reading a word back takes the value of all the bytes it is given.
-/
namespace LiveDex

abbrev Bytes := List UInt8

inductive ByteOrder where
  | little
  | big
  deriving DecidableEq, Repr

namespace Bytes

def ofNatLittle : Nat → Nat → Bytes
  | 0, _ => []
  | w + 1, n => n.toUInt8 :: ofNatLittle w (n / 256)

def toNatLittle : Bytes → Nat
  | [] => 0
  | b :: rest => b.toNat + 256 * toNatLittle rest

/-- The `w` low bytes of `n` in the given order. -/
def ofNat : ByteOrder → Nat → Nat → Bytes
  | .little, w, n => ofNatLittle w n
  | .big, w, n => (ofNatLittle w n).reverse

def toNat : ByteOrder → Bytes → Nat
  | .little, bytes => toNatLittle bytes
  | .big, bytes => toNatLittle bytes.reverse

theorem length_ofNatLittle (w n : Nat) : (ofNatLittle w n).length = w := by
  induction w generalizing n with
  | zero => rfl
  | succ w ih => simp [ofNatLittle, ih]

theorem length_ofNat (order : ByteOrder) (w n : Nat) : (ofNat order w n).length = w := by
  cases order <;> simp [ofNat, length_ofNatLittle]

end Bytes

end LiveDex
