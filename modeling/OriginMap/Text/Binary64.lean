/-!
# Range of binary floating point

Which numbers are too large for the binary64 format of IEEE 754: natural numbers rounded to
fifty-three significant bits, a half to the even neighbour, and the least number that rounds to infinity.
-/

namespace OriginMap.Binary64

/-- The nearest number with at most fifty-three significant bits; a tie goes to the even one. -/
def round (n : Nat) : Nat :=
  if n < Nat.pow 2 53 then n
  else
    let unit := Nat.pow 2 (n.log2 - 52)
    let whole := n / unit
    let part := n % unit
    if unit < 2 * part ∨ (2 * part = unit ∧ whole % 2 = 1) then (whole + 1) * unit else whole * unit

/-- The least number that rounds to infinity. -/
def infinite : Nat := Nat.pow 2 1024 - Nat.pow 2 970

/-- Whether a significand times a power of ten, both rounded first, has an infinite product. -/
def productInfinite (significand : Nat) (exponent : Int) : Bool :=
  significand ≠ 0 && 0 ≤ exponent &&
    (308 < exponent || infinite ≤ round significand * round (Nat.pow 10 exponent.toNat))

/-- Whether a significand times a power of ten is infinite once it is rounded. Powers that decide the
matter by themselves are not computed. -/
def decimalInfinite (significand : Nat) (exponent : Int) : Bool :=
  if significand = 0 then false
  else if 400 < exponent then true
  else if 0 ≤ exponent then infinite ≤ significand * Nat.pow 10 exponent.toNat
  else if significand.log2 + 1 < exponent.natAbs then false
  else infinite * Nat.pow 10 exponent.natAbs ≤ significand

end OriginMap.Binary64
