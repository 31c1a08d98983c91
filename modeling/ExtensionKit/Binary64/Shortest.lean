import ExtensionKit.Binary64.Basic
import ExtensionKit.Text.Numeral

/-!
# The fewest digits that read back

Every number is the nearest one to all the reals of an interval around it. `Finite.shortest` selects,
of the decimals in that interval, one with the fewest digits, and of those the closest. The search
goes through the decimal grids from the coarsest on, and on each tries the two neighbours of the
number; all comparisons are between naturals.

`Finite.text` lays the digits out: positionally for magnitudes from `1e-5` up to and not including
`1e16`, else with a signed exponent.
-/

namespace ExtensionKit

/-- The number `digits * 10 ^ exponent`. -/
structure Decimal where
  /-- the digits, as a natural -/
  digits : Nat
  /-- the power of ten that multiplies them -/
  exponent : Int
deriving DecidableEq, Repr

namespace Decimal

/-- Compares `digits * 10 ^ exponent` with `num / den`. -/
def compareQuotient (d : Decimal) (num den : Nat) : Ordering :=
  compare (d.digits * Nat.pow 10 d.exponent.toNat * den) (num * Nat.pow 10 (-d.exponent).toNat)

/-- Moves trailing zeros of the digits into the exponent. -/
def strip (d : Decimal) : Decimal :=
  if h : d.digits ≠ 0 ∧ d.digits % 10 = 0 then strip ⟨d.digits / 10, d.exponent + 1⟩ else d
termination_by d.digits
decreasing_by omega

end Decimal

namespace Finite

/-- Whether a decimal is among the reals that round to the magnitude: from half-way to the number
below up to half-way to the number above, the ends included if the significand is even. Below a
power of two the numbers are twice as dense. -/
def readsBack (x : Finite) (d : Decimal) : Bool :=
  let unit := Nat.pow 2 x.scale
  let below := if x.significand = 0x10000000000000 ∧ 0 < x.scale then unit else 2 * unit
  let low := d.compareQuotient (4 * x.units - below) (4 * unitsPerOne)
  let high := d.compareQuotient (4 * x.units + 2 * unit) (4 * unitsPerOne)
  let even := x.significand % 2 = 0
  (low == .gt || (even && low == .eq)) && (high == .lt || (even && high == .eq))

/-- The greatest `e` with `10 ^ e` at most the magnitude, from an estimate by the binary logarithm
that is off by one at most. -/
def leadingExponent (x : Finite) : Int :=
  let estimate := Int.fdiv (((x.units.log2 : Int) - 1074) * 1233) 4096
  let below (e : Int) : Bool := (Decimal.mk 1 (e + 1)).compareQuotient x.units unitsPerOne == .gt
  if below (estimate - 1) then estimate - 1
  else if below estimate then estimate
  else estimate + 1

/-- The better of the two neighbours of the magnitude on the grid of step `10 ^ exponent`: one that
reads back, and of two the closer, on a tie the even one. -/
def onGrid? (x : Finite) (exponent : Int) : Option Decimal :=
  let num := x.units * Nat.pow 10 (-exponent).toNat
  let den := unitsPerOne * Nat.pow 10 exponent.toNat
  let floor := num / den
  let lower : Decimal := ⟨floor, exponent⟩
  let upper : Decimal := ⟨floor + 1, exponent⟩
  match x.readsBack lower, x.readsBack upper with
  | false, false => none
  | true, false => some lower
  | false, true => some upper
  | true, true =>
    match compare (2 * (num % den)) den with
    | .lt => some lower
    | .gt => some upper
    | .eq => some (if floor % 2 = 0 then lower else upper)

/-- The shortest decimal that reads back as the magnitude. Seventeen digits always suffice; the exact
value stands in case none is found. -/
def shortest (x : Finite) : Decimal :=
  if x.significand = 0 then ⟨0, 0⟩
  else
    let top := x.leadingExponent
    let found := (List.range 17).findSome? fun (n : Nat) => x.onGrid? (top - n)
    (found.getD ⟨x.units * Nat.pow 5 1074, -1074⟩).strip

/-- Least decimal exponent of the first digit that is written positionally. -/
def leastPlainExponent : Int := -5

/-- Greatest decimal exponent of the first digit that is written positionally. -/
def greatestPlainExponent : Int := 15

/-- Lays out a magnitude. Positional notation has a digit on either side of the point; the exponent
has a sign and no padding. -/
def layout (d : Decimal) : List Char :=
  let ds := Text.decimal d.digits
  let lead : Int := d.exponent + ds.length - 1
  if lead < leastPlainExponent ∨ greatestPlainExponent < lead then
    let fraction := match ds.drop 1 with
      | [] => []
      | rest => '.' :: rest
    let sign := if lead < 0 then '-' else '+'
    ds.take 1 ++ fraction ++ ['e', sign] ++ Text.decimal lead.natAbs
  else if lead < 0 then
    ['0', '.'] ++ List.replicate (lead.natAbs - 1) '0' ++ ds
  else
    let whole := lead.toNat + 1
    if ds.length ≤ whole then ds ++ List.replicate (whole - ds.length) '0' ++ ['.', '0']
    else ds.take whole ++ ['.'] ++ ds.drop whole

/-- The text of a finite number. -/
def text (x : Finite) : List Char :=
  let magnitude := if x.significand = 0 then ['0', '.', '0'] else layout x.shortest
  if x.negative then '-' :: magnitude else magnitude

end Finite

end ExtensionKit
