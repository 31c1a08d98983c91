import ExtensionKit.Binary64.Nearest
import ExtensionKit.Text.Numeral

/-!
# Numerals with a point or an exponent

How a JSON numeral that is no integer of 64 bits becomes a binary number. The digits are taken as long
as the integer they make stays below `2 ^ 64`; later ones only count as places. That integer is rounded,
then multiplied or divided by a rounded power of ten and rounded once more. Powers beyond `10 ^ 308` are
taken in steps. Two roundings may differ from one in the last digit, so this is a rule of the format.
-/

namespace ExtensionKit.Json

/-- Takes digits into a number as long as it stays below `2 ^ 64`, and leaves the others. -/
def absorb (n : Nat) : List Char → Nat × List Char
  | [] => (n, [])
  | c :: rest =>
    let next := 10 * n + Text.digitValue c
    if next < 0x10000000000000000 then absorb next rest else (n, c :: rest)

/-- The integer of the digits before and after a point, and the exponent of ten that goes with it. -/
def absorbDigits (whole fraction : List Char) : Nat × Int :=
  let (n, wholeLeft) := absorb 0 whole
  let (n, fractionLeft) := absorb n fraction
  (n, (wholeLeft.length : Int) - ((fraction.length : Int) - fractionLeft.length))

/-- A magnitude times a power of ten that is a number itself, each rounded. -/
def timesPowerOfTen (x : Finite) (n : Nat) : Binary64 :=
  match Binary64.ofInt (Nat.pow 10 n) with
  | .finite power =>
    .nearest x.negative (x.units * power.units) (Finite.unitsPerOne * Finite.unitsPerOne)
  | _ => .infinite x.negative

/-- A magnitude divided by a power of ten that is a number itself, each rounded. -/
def overPowerOfTen (x : Finite) (n : Nat) : Binary64 :=
  match Binary64.ofInt (Nat.pow 10 n) with
  | .finite power => .nearest x.negative x.units power.units
  | _ => .zero

/-- The greatest power of ten that is a number. -/
def greatestPower : Nat := 308

/-- A magnitude divided by the greatest power of ten some times and then by another power. Nothing is
left to divide once zero is reached. -/
def scaleDown : (steps : Nat) → Finite → Nat → Binary64
  | 0, x, n => overPowerOfTen x n
  | steps + 1, x, n =>
    if x.isZero then .finite x
    else match overPowerOfTen x greatestPower with
      | .finite y => scaleDown steps y n
      | other => other

/-- `± digits * 10 ^ exponent` in two roundings, if it is finite. -/
def numeral? (negative : Bool) (digits : Nat) (exponent : Int) : Option Finite :=
  match Binary64.nearest negative digits 1 with
  | .finite x =>
    let scaled :=
      if exponent < 0 then
        let steps := (exponent.natAbs - 1) / greatestPower
        scaleDown steps x (exponent.natAbs - steps * greatestPower)
      else if x.isZero then .finite x
      else if exponent.natAbs ≤ greatestPower then timesPowerOfTen x exponent.natAbs
      else .infinite negative
    match scaled with
    | .finite y => some y
    | _ => none
  | _ => none

end ExtensionKit.Json
