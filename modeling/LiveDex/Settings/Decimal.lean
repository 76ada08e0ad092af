/-!
The size of decimal numbers. A number is taken as a significand below 2^64 and a power of ten:
digits are added to the significand as long as they fit. Its value is the product of the two,
where each of them and then the product is rounded to 53 significant bits. A number is out of
range when that value is 2^1024 or more.
-/
namespace LiveDex.Settings

/-- The number `significand * 10 ^ exponent`. -/
structure Decimal where
  significand : Nat
  exponent : Int
  deriving DecidableEq, Repr

namespace Decimal

def digit (c : Char) : Nat :=
  c.toNat - '0'.toNat

/-- Significands are below this. -/
def significandBound : Nat := UInt64.size

/-- The digits of a whole part behind those that gave `significand`. From the first digit that
does not fit on, each one counts as a factor of ten only. -/
def wholeFrom (significand : Nat) : List Char → Decimal
  | [] => ⟨significand, 0⟩
  | c :: rest =>
    let next := significand * 10 + digit c
    if next < significandBound then wholeFrom next rest
    else ⟨significand, rest.length + 1⟩

/-- Digits behind the point, up to the first that does not fit. -/
def addFraction (number : Decimal) : List Char → Decimal
  | [] => number
  | c :: rest =>
    let next := number.significand * 10 + digit c
    if next < significandBound then addFraction ⟨next, number.exponent - 1⟩ rest
    else number

/-- The value of the digits of an exponent. Exponents of 2^31 and more all count as 2^31. -/
def exponentOf (digits : List Char) : Nat :=
  digits.foldl (fun n c => min (1 <<< 31) (n * 10 + digit c)) 0

/-- Moves the point by the exponent that is written with a number. -/
def scale (number : Decimal) (negative : Bool) (digits : List Char) : Decimal :=
  let shift : Int := exponentOf digits
  { number with exponent := number.exponent + (if negative then -shift else shift) }

/-- The nearest number with 53 significant bits; of two equally near ones, the one whose last of
these bits is zero. -/
def nearest53 (n : Nat) : Nat :=
  if n < 1 <<< 53 then n
  else
    let unit := 1 <<< (n.log2 - 52)
    let kept := n / unit
    let lost := 2 * (n % unit)
    if unit < lost || (lost = unit && kept % 2 = 1) then (kept + 1) * unit else kept * unit

/-- The value of a number without fractional digits. -/
def wholeValue (significand power : Nat) : Nat :=
  nearest53 (nearest53 significand * nearest53 (Nat.pow 10 power))

/-- Powers of ten above 10^308 are out of range themselves. -/
def isOutOfRange (number : Decimal) : Bool :=
  number.significand ≠ 0 && 0 ≤ number.exponent
    && (308 < number.exponent
      || 1 <<< 1024 ≤ wholeValue number.significand number.exponent.toNat)

end Decimal

end LiveDex.Settings
