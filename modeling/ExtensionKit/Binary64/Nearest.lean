import ExtensionKit.Binary64.Basic

/-!
# Rounding to the nearest number

`nearest` takes a quotient of naturals to the number closest to it, and to the one with the even
significand if two are equally close. Integers and decimals are rounded through it.
-/

namespace ExtensionKit

/-- A quotient rounded to the nearest natural, a half to the even neighbour. -/
def roundHalfEven (num den : Nat) : Nat :=
  let whole := num / den
  let twice := 2 * (num % den)
  if twice < den then whole
  else if den < twice then whole + 1
  else if whole % 2 = 0 then whole else whole + 1

namespace Binary64

/-- The number nearest to `± num / den`. The scale is chosen so that the rounded significand has 53
digits, or is the least scale. -/
def nearest (negative : Bool) (num den : Nat) : Binary64 :=
  let units := num * Finite.unitsPerOne
  let whole := units / den
  let scale := if whole < 0x20000000000000 then 0 else whole.log2 - 52
  pack negative (roundHalfEven units (den * Nat.pow 2 scale)) scale

/-- The number nearest to an integer. -/
def ofInt (i : Int) : Binary64 := nearest (decide (i < 0)) i.natAbs 1

/-- The number of decimal digits of a natural; zero has none. -/
def decimalLength (n : Nat) : Nat := if n = 0 then 0 else decimalLength (n / 10) + 1
termination_by n
decreasing_by omega

/-- The number nearest to `± digits * 10 ^ exponent`. From `10 ^ 311` on every number is rounded to
infinity and below `10 ^ -331` to zero, so a power of ten is computed only in between. -/
def ofDecimal (negative : Bool) (digits : Nat) (exponent : Int) : Binary64 :=
  let top := exponent + decimalLength digits
  if digits = 0 ∨ top < -330 then pack negative 0 0
  else if 311 < top then .infinite negative
  else if 0 ≤ exponent then nearest negative (digits * Nat.pow 10 exponent.toNat) 1
  else nearest negative digits (Nat.pow 10 (-exponent).toNat)

end Binary64

end ExtensionKit
