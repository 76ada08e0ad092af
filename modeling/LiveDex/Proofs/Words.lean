import LiveDex.Bytes
import Mathlib.Algebra.Group.Nat.Defs

/-!
A word and its value determine each other. The value of `w` bytes is below `256 ^ w`, every
number below that bound has one form of `w` bytes, and every byte string is the form of its own
value. The statements hold in both byte orders.
-/
namespace LiveDex.Bytes

theorem toNatLittle_lt (bytes : Bytes) : toNatLittle bytes < 256 ^ bytes.length := by
  induction bytes with
  | nil => simp [toNatLittle]
  | cons b rest ih =>
    have hb : b.toNat < 256 := b.toNat_lt
    simp only [toNatLittle, List.length_cons, Nat.pow_succ]
    omega

theorem toNatLittle_ofNatLittle (w n : Nat) (hn : n < 256 ^ w) :
    toNatLittle (ofNatLittle w n) = n := by
  induction w generalizing n with
  | zero =>
    simp only [Nat.pow_zero] at hn
    simp only [ofNatLittle, toNatLittle]
    omega
  | succ w ih =>
    have hquot : n / 256 < 256 ^ w := by
      rw [Nat.pow_succ] at hn
      omega
    simp only [ofNatLittle, toNatLittle, ih _ hquot, Nat.toUInt8_eq, UInt8.toNat_ofNat']
    omega

theorem ofNatLittle_toNatLittle (bytes : Bytes) :
    ofNatLittle bytes.length (toNatLittle bytes) = bytes := by
  induction bytes with
  | nil => rfl
  | cons b rest ih =>
    have hb : b.toNat < 256 := b.toNat_lt
    have hquot : (b.toNat + 256 * toNatLittle rest) / 256 = toNatLittle rest := by omega
    have hlow : (b.toNat + 256 * toNatLittle rest).toUInt8 = b := by
      apply UInt8.toNat_inj.mp
      simp only [Nat.toUInt8_eq, UInt8.toNat_ofNat']
      omega
    simp only [List.length_cons, toNatLittle, ofNatLittle, hquot, hlow, ih]

theorem toNat_lt (order : ByteOrder) (bytes : Bytes) :
    toNat order bytes < 256 ^ bytes.length := by
  cases order with
  | little => exact toNatLittle_lt bytes
  | big => simpa only [toNat, List.length_reverse] using toNatLittle_lt bytes.reverse

theorem toNat_ofNat (order : ByteOrder) (w n : Nat) (hn : n < 256 ^ w) :
    toNat order (ofNat order w n) = n := by
  cases order with
  | little => exact toNatLittle_ofNatLittle w n hn
  | big => simpa only [toNat, ofNat, List.reverse_reverse] using toNatLittle_ofNatLittle w n hn

theorem ofNat_toNat (order : ByteOrder) (bytes : Bytes) :
    ofNat order bytes.length (toNat order bytes) = bytes := by
  cases order with
  | little => exact ofNatLittle_toNatLittle bytes
  | big =>
    have h := ofNatLittle_toNatLittle bytes.reverse
    rw [List.length_reverse] at h
    simp only [toNat, ofNat, h, List.reverse_reverse]

end LiveDex.Bytes
