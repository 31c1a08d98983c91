/-!
# Binary floating-point numbers of 64 bits

A finite number is a sign, a significand below `2 ^ 53` and a scale, and stands for
`± significand * 2 ^ scale / 2 ^ 1074`. Measured in units of `2 ^ -1074`, the least positive number,
every magnitude is therefore a natural (`Finite.units`), and comparing, truncating and rounding are
exact arithmetic on naturals. The bounds on the fields make the representation unique, apart from
the sign of zero.
-/

namespace ExtensionKit

/-- A finite number. -/
structure Finite where
  /-- whether the sign bit is set; zero has both signs -/
  negative : Bool
  /-- the digits of the magnitude -/
  significand : Nat
  /-- the power of two that multiplies them -/
  scale : Nat
  /-- there are at most 53 digits -/
  significand_lt : significand < 0x20000000000000
  /-- the magnitude is below `2 ^ 1024` -/
  scale_le : scale ≤ 2045
  /-- all 53 digits are used unless the scale is the least one -/
  normal : scale = 0 ∨ 0x10000000000000 ≤ significand
deriving DecidableEq, Repr

namespace Finite

/-- Zero without a sign. -/
def zero : Finite := ⟨false, 0, 0, by decide, by decide, by decide⟩

/-- How many units there are in one. -/
def unitsPerOne : Nat := Nat.pow 2 1074

/-- The magnitude in units of `2 ^ -1074`. -/
def units (x : Finite) : Nat := x.significand * Nat.pow 2 x.scale

/-- Both zeros are zero. -/
def isZero (x : Finite) : Bool := x.significand == 0

/-- Equality as numbers: the two zeros are equal, all else is equal to itself only. -/
def sameNumber (x y : Finite) : Bool := (x.isZero && y.isZero) || x == y

/-- The integer part, toward zero. -/
def truncate (x : Finite) : Int :=
  let whole : Int := (x.units / unitsPerOne : Nat)
  if x.negative then -whole else whole

/-- The word that stores the number: sign, biased exponent, fraction. The last two together count the
magnitudes from zero on. -/
def word (x : Finite) : Nat :=
  (if x.negative then 0x8000000000000000 else 0) + x.scale * 0x10000000000000 + x.significand

end Finite

/-- A number, an infinity, or not a number. -/
inductive Binary64 where
  | finite (value : Finite)
  | infinite (negative : Bool)
  | nan
deriving DecidableEq, Repr

namespace Binary64

/-- Zero without a sign. -/
def zero : Binary64 := .finite .zero

/-- Whether the number is neither infinite nor `nan`. -/
def isFinite : Binary64 → Bool
  | .finite _ => true
  | _ => false

/-- Equality as numbers; `nan` is unequal to itself. -/
def sameNumber : Binary64 → Binary64 → Bool
  | .finite x, .finite y => x.sameNumber y
  | .infinite s, .infinite t => s == t
  | _, _ => false

/-- The word that stores the number; `nan` is the quiet one without a sign. -/
def word : Binary64 → Nat
  | .finite x => x.word
  | .infinite negative => (if negative then 0x8000000000000000 else 0) + 0x7FF0000000000000
  | .nan => 0x7FF8000000000000

/-- The number `± significand * 2 ^ scale` units, where a significand of `2 ^ 53` carries into the
scale. What is too large is infinite. -/
def pack (negative : Bool) (significand scale : Nat) : Binary64 :=
  let (significand, scale) :=
    if significand = 0x20000000000000 then (0x10000000000000, scale + 1) else (significand, scale)
  if h : significand < 0x20000000000000 ∧ scale ≤ 2045 ∧
      (scale = 0 ∨ 0x10000000000000 ≤ significand) then
    .finite ⟨negative, significand, scale, h.1, h.2.1, h.2.2⟩
  else .infinite negative

end Binary64

end ExtensionKit
