import ExtensionKit.Typing.Coercion
import Mathlib.Data.Rat.Floor
import Mathlib.Tactic.Positivity
import Mathlib.Tactic.Ring

/-!
# Integer parts

A binary number stands for a rational (`Finite.value`), and what truncation gives is the integer part of
that rational (`Finite.integerPart_value`). From `2 ^ 63` on the numbers are `2048` apart
(`Finite.units_lt_or_grid`), so a number with an integer part of 64 bits has a magnitude of at most
`2 ^ 63`. The converse has one exception, `2 ^ 63` itself: `Json.truncated?` gives the greatest integer for
it, and for all other numbers the integer part, if that has 64 bits.
-/

namespace ExtensionKit

/-- The integer part of a rational, toward zero. -/
def integerPart (q : ℚ) : Int := if 0 ≤ q then ⌊q⌋ else ⌈q⌉

/-- An integer of 64 bits with a sign. -/
def HasInt64 (i : Int) : Prop := -2 ^ 63 ≤ i ∧ i ≤ 2 ^ 63 - 1

instance (i : Int) : Decidable (HasInt64 i) := inferInstanceAs (Decidable (_ ∧ _))

theorem HasInt64.toInt_ofInt {i : Int} (h : HasInt64 i) : (Int64.ofInt i).toInt = i :=
  Int64.toInt_ofInt_of_le h.1 (by have := h.2; omega)

namespace Finite

/-- The rational that the number stands for. -/
def value (x : Finite) : ℚ :=
  let magnitude : ℚ := x.significand * 2 ^ x.scale / 2 ^ 1074
  if x.negative then -magnitude else magnitude

theorem unitsPerOne_eq : unitsPerOne = 2 ^ 1074 := by
  delta unitsPerOne
  -- the power is not to be computed
  generalize 1074 = j
  rfl

theorem unitsPerOne_pos : 0 < unitsPerOne := by
  rw [unitsPerOne_eq]
  positivity

theorem units_eq (x : Finite) : x.units = x.significand * 2 ^ x.scale := by rw [units, Nat.pow_eq]

theorem two_pow_add (k : Nat) : 2 ^ (1074 + k) = 2 ^ k * unitsPerOne := by
  rw [unitsPerOne_eq]
  generalize 1074 = j
  rw [Nat.pow_add, Nat.mul_comm]

/-- The value of a finite number as a fraction of its units. -/
theorem value_eq (x : Finite) :
    x.value = if x.negative then -((x.units : ℚ) / unitsPerOne) else (x.units : ℚ) / unitsPerOne := by
  rw [value, units_eq, unitsPerOne_eq, Nat.cast_mul, Nat.cast_pow, Nat.cast_pow, Nat.cast_ofNat]

/-- **Truncation gives the integer part.** -/
theorem integerPart_value (x : Finite) : integerPart x.value = x.truncate := by
  have hfloor : ⌊(x.units : ℚ) / unitsPerOne⌋ = ((x.units / unitsPerOne : Nat) : Int) :=
    Rat.floor_natCast_div_natCast ..
  have hnonneg : (0 : ℚ) ≤ x.units / unitsPerOne := div_nonneg (Nat.cast_nonneg _) (Nat.cast_nonneg _)
  rw [value_eq, integerPart, truncate]
  by_cases hneg : x.negative = true
  · simp only [if_pos hneg]
    split
    · next h =>
      have hzero : (x.units : ℚ) / unitsPerOne = 0 := by linarith
      rw [hzero, Int.floor_zero] at hfloor
      rw [hzero, neg_zero, Int.floor_zero, ← hfloor, Int.neg_zero]
    · rw [Int.ceil_neg, hfloor]
  · simp only [if_neg hneg]
    rw [if_pos hnonneg, hfloor]

/-- A number has fewer units than the next power of two above its scale. -/
theorem units_lt {x : Finite} {k : Nat} (h : x.scale ≤ 1074 + k) :
    x.units < 2 ^ (53 + k) * unitsPerOne := by
  calc x.units = x.significand * 2 ^ x.scale := x.units_eq
    _ < 2 ^ 53 * 2 ^ x.scale := Nat.mul_lt_mul_of_pos_right x.significand_lt (by positivity)
    _ ≤ 2 ^ 53 * 2 ^ (1074 + k) := Nat.mul_le_mul_left _ (Nat.pow_le_pow_right (by decide) h)
    _ = 2 ^ (53 + k) * unitsPerOne := by rw [two_pow_add, ← Nat.mul_assoc, ← Nat.pow_add]

/-- **The numbers from `2 ^ 63` on** are multiples of `2048`. -/
theorem units_lt_or_grid (x : Finite) :
    x.units < 2 ^ 63 * unitsPerOne ∨ ∃ n, x.units = n * 2048 * unitsPerOne := by
  rcases Nat.lt_or_ge (1074 + 10) x.scale with hscale | hscale
  · right
    obtain ⟨k, hk⟩ := Nat.exists_eq_add_of_lt hscale
    refine ⟨x.significand * 2 ^ k, ?_⟩
    rw [units_eq, hk, show 1074 + 10 + k + 1 = 1074 + (11 + k) by omega, two_pow_add, Nat.pow_add]
    ring
  · left
    simpa only [Nat.reduceAdd] using units_lt (k := 10) hscale

/-- A magnitude with an integer part of at most `2 ^ 63` is at most `2 ^ 63`. -/
theorem units_le_of_div_le {x : Finite} (h : x.units / unitsPerOne ≤ 2 ^ 63) :
    x.units ≤ 2 ^ 63 * unitsPerOne := by
  rcases x.units_lt_or_grid with hlt | ⟨n, hn⟩
  · exact hlt.le
  · rw [hn, Nat.mul_div_cancel _ unitsPerOne_pos] at h
    rw [hn]
    exact Nat.mul_le_mul_right _ h

/-- Which number is the first power of two beyond the integers of 64 bits. -/
theorem value_eq_two_pow_iff {x : Finite} :
    x.value = 2 ^ 63 ↔ x.negative = false ∧ x.units = 2 ^ 63 * unitsPerOne := by
  have hone : (unitsPerOne : ℚ) ≠ 0 := by
    rw [Nat.cast_ne_zero, ← Nat.pos_iff_ne_zero]
    exact unitsPerOne_pos
  have hnonneg : (0 : ℚ) ≤ x.units / unitsPerOne := div_nonneg (Nat.cast_nonneg _) (Nat.cast_nonneg _)
  rw [value_eq]
  cases hneg : x.negative with
  | true =>
    rw [if_pos rfl]
    refine ⟨fun h => ?_, nofun⟩
    have hnonpos : -((x.units : ℚ) / unitsPerOne) ≤ 0 := neg_nonpos.mpr hnonneg
    rw [h] at hnonpos
    exact absurd hnonpos (by norm_num)
  | false =>
    rw [if_neg (by decide), div_eq_iff hone]
    exact_mod_cast (and_iff_right rfl).symm

end Finite

namespace Json

variable {x : Finite}

theorem truncated?_eq (x : Finite) :
    truncated? (.finite x) =
      if x.units ≤ 2 ^ 63 * Finite.unitsPerOne then some (.ofInt (min x.truncate (2 ^ 63 - 1)))
      else none := by
  rw [truncated?, show (0x8000000000000000 : Nat) = 2 ^ 63 by decide,
    show (0x7FFFFFFFFFFFFFFF : Int) = 2 ^ 63 - 1 by decide]

/-- Numbers beyond that power have no integer part of 64 bits. -/
theorem truncated?_of_lt (h : 2 ^ 63 * Finite.unitsPerOne < x.units) : truncated? (.finite x) = none := by
  rw [truncated?_eq, if_neg (Nat.not_le.mpr h)]

/-- An integer part of 64 bits is what is given. -/
theorem truncated?_of_hasInt64 (h : HasInt64 x.truncate) :
    truncated? (.finite x) = some (.ofInt x.truncate) := by
  have hle : x.units / Finite.unitsPerOne ≤ 2 ^ 63 := by
    obtain ⟨hlow, hhigh⟩ := h
    rw [Finite.truncate] at hlow hhigh
    cases hneg : x.negative with
    | true =>
      rw [hneg] at hlow
      simp only [if_true] at hlow
      omega
    | false =>
      rw [hneg] at hhigh
      simp only [Bool.false_eq_true, if_false] at hhigh
      omega
  rw [truncated?_eq, if_pos (Finite.units_le_of_div_le hle), Int.min_eq_left h.2]

/-- For `2 ^ 63` the greatest integer is given. -/
theorem truncated?_two_pow (h : x.value = 2 ^ 63) : truncated? (.finite x) = some Int64.maxValue := by
  obtain ⟨hpos, hunits⟩ := Finite.value_eq_two_pow_iff.mp h
  have htruncate : x.truncate = 2 ^ 63 := by
    rw [Finite.truncate, hunits, Nat.mul_div_cancel _ Finite.unitsPerOne_pos, hpos]
    rfl
  rw [truncated?_eq, if_pos hunits.le, htruncate]
  rfl

/-- For all other numbers nothing is given. -/
theorem truncated?_eq_none (h : ¬HasInt64 x.truncate) (hx : x.value ≠ 2 ^ 63) :
    truncated? (.finite x) = none := by
  refine truncated?_of_lt (Nat.lt_of_not_le fun hle => ?_)
  have hdiv : x.units / Finite.unitsPerOne ≤ 2 ^ 63 := Nat.div_le_of_le_mul (by rwa [Nat.mul_comm])
  cases hneg : x.negative with
  | true =>
    refine h ?_
    rw [Finite.truncate, hneg]
    generalize x.units / Finite.unitsPerOne = whole at hdiv
    simp only [if_true, HasInt64]
    omega
  | false =>
    have hwhole : x.units / Finite.unitsPerOne = 2 ^ 63 := by
      by_contra hne
      refine h ?_
      rw [Finite.truncate, hneg]
      generalize x.units / Finite.unitsPerOne = whole at hdiv hne
      simp only [Bool.false_eq_true, if_false, HasInt64]
      omega
    have hge : 2 ^ 63 * Finite.unitsPerOne ≤ x.units := by
      rw [← hwhole]
      exact Nat.div_mul_le_self ..
    exact hx (Finite.value_eq_two_pow_iff.mpr ⟨hneg, Nat.le_antisymm hle hge⟩)

end Json

end ExtensionKit
