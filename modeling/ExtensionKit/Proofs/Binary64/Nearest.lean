import ExtensionKit.Proofs.Binary64.Truncation

/-!
# Integers as binary numbers

How an integer of magnitude `2 ^ 52` and more is rounded: to 53 digits, of which there are as many as the
scale leaves (`Binary64.nearest_integer`). At `2 ^ 63` this decides what becomes of integers that do not
have 64 bits. Up to `2 ^ 63 + 1024`, which is half-way to the next number, they are rounded to `2 ^ 63`;
further on they are rounded to something greater or to infinity (`Json.truncated?_ofDecimal_near`,
`Json.truncated?_ofDecimal_far`).
-/

namespace ExtensionKit

/-! ## Rounding a quotient -/

theorem div_le_roundHalfEven (num den : Nat) : num / den ≤ roundHalfEven num den := by
  rw [roundHalfEven]
  split
  · exact Nat.le_refl _
  · split
    · exact Nat.le_succ _
    · split
      · exact Nat.le_refl _
      · exact Nat.le_succ _

/-- **Rounding to an even natural and below.** The half-way point above it belongs to it. -/
theorem roundHalfEven_le_iff (num den q : Nat) (hden : 0 < den) (heven : q % 2 = 0) :
    roundHalfEven num den ≤ q ↔ 2 * num ≤ (2 * q + 1) * den := by
  have hsplit : den * (num / den) + num % den = num := Nat.div_add_mod num den
  have hmod : num % den < den := Nat.mod_lt num hden
  have hfloor := div_le_roundHalfEven num den
  rcases Nat.lt_trichotomy (num / den) q with hlt | heq | hgt
  · have hround : roundHalfEven num den ≤ num / den + 1 := by
      rw [roundHalfEven]
      split_ifs <;> omega
    have hmul : den * (num / den + 1) ≤ den * q := Nat.mul_le_mul_left den hlt
    refine iff_of_true (by omega) ?_
    rw [Nat.mul_add, Nat.mul_one] at hmul
    rw [Nat.add_mul, Nat.mul_assoc, Nat.mul_comm q den]
    omega
  · rw [heq, Nat.mul_comm den q] at hsplit
    rw [roundHalfEven, heq, Nat.add_mul, Nat.mul_assoc]
    split_ifs <;> omega
  · have hmul : den * (q + 1) ≤ den * (num / den) := Nat.mul_le_mul_left den hgt
    refine iff_of_false (by omega) ?_
    rw [Nat.mul_add, Nat.mul_one] at hmul
    rw [Nat.add_mul, Nat.mul_assoc, Nat.mul_comm q den]
    omega

/-- Rounding depends on the fraction alone, not on how it is written. -/
theorem roundHalfEven_mul_right (num den : Nat) {k : Nat} (hk : 0 < k) :
    roundHalfEven (num * k) (den * k) = roundHalfEven num den := by
  have hlt : ∀ a b : Nat, a * k < b * k ↔ a < b := fun a b => Nat.mul_lt_mul_right hk
  simp only [roundHalfEven, Nat.mul_div_mul_right _ _ hk, Nat.mul_mod_mul_right, ← Nat.mul_assoc, hlt]

namespace Binary64

/-- What is packed has the magnitude that is asked for, if it is finite. -/
theorem units_of_pack {negative : Bool} {significand scale : Nat} {x : Finite}
    (h : pack negative significand scale = .finite x) :
    x.negative = negative ∧ x.units = significand * 2 ^ scale := by
  rw [pack] at h
  by_cases hcarry : significand = 0x20000000000000
  · subst hcarry
    simp only [if_true] at h
    split at h
    · obtain rfl := Binary64.finite.inj h
      refine ⟨rfl, ?_⟩
      rw [Finite.units_eq]
      change 0x10000000000000 * 2 ^ (scale + 1) = _
      rw [Nat.pow_succ]
      omega
    · cases h
  · simp only [if_neg hcarry] at h
    split at h
    · obtain rfl := Binary64.finite.inj h
      exact ⟨rfl, Finite.units_eq _⟩
    · cases h

/-- What has 53 digits and a scale that is not too great is packed as it is. -/
theorem pack_normal (negative : Bool) (significand scale : Nat) (hlow : 2 ^ 52 ≤ significand)
    (hhigh : significand < 2 ^ 53) (hscale : scale ≤ 2045) :
    ∃ x, pack negative significand scale = .finite x := by
  refine ⟨⟨negative, significand, scale, hhigh, hscale, .inr hlow⟩, ?_⟩
  have hcarry : ¬significand = 0x20000000000000 := Nat.ne_of_lt hhigh
  rw [pack]
  simp only [if_neg hcarry]
  exact dif_pos ⟨hhigh, hscale, .inr hlow⟩

theorem log2_mul_unitsPerOne {n : Nat} (h : n ≠ 0) :
    (n * Finite.unitsPerOne).log2 = 1074 + n.log2 := by
  rw [Nat.log2_eq_iff (Nat.mul_ne_zero h (Nat.ne_of_gt Finite.unitsPerOne_pos)), Nat.add_assoc,
    Finite.two_pow_add, Finite.two_pow_add]
  exact ⟨Nat.mul_le_mul_right _ (Nat.log2_self_le h),
    Nat.mul_lt_mul_of_pos_right Nat.lt_log2_self Finite.unitsPerOne_pos⟩

/-- **An integer with more than 52 digits is rounded to 53.** -/
theorem nearest_integer (negative : Bool) {n k : Nat} (h : n ≠ 0) (hk : n.log2 = 52 + k) :
    nearest negative n 1 = pack negative (roundHalfEven n (2 ^ k)) (1074 + k) := by
  have hlog : (n * Finite.unitsPerOne).log2 - 52 = 1074 + k := by
    rw [log2_mul_unitsPerOne h, hk]
    omega
  have hlarge : ¬n * Finite.unitsPerOne < 0x20000000000000 := by
    intro hlt
    have := (Nat.log2_lt (k := 53)
      (Nat.mul_ne_zero h (Nat.ne_of_gt Finite.unitsPerOne_pos))).mpr hlt
    rw [log2_mul_unitsPerOne h] at this
    omega
  simp only [nearest, Nat.div_one, if_neg hlarge, hlog, Nat.one_mul, Nat.pow_eq, Finite.two_pow_add,
    roundHalfEven_mul_right _ _ Finite.unitsPerOne_pos]

/-! ## Integers from `2 ^ 63` on -/

/-- Up to the point half-way to the next number an integer is rounded to `2 ^ 63`. -/
theorem nearest_near (negative : Bool) {n : Nat} (hlow : 2 ^ 63 ≤ n) (hhigh : n ≤ 2 ^ 63 + 1024) :
    ∃ x, nearest negative n 1 = .finite x ∧ x.negative = negative ∧
      x.units = 2 ^ 63 * Finite.unitsPerOne := by
  have hlog : n.log2 = 52 + 11 := (Nat.log2_eq_iff (by omega)).mpr ⟨hlow, by omega⟩
  have hround : roundHalfEven n (2 ^ 11) = 2 ^ 52 := by
    have hle := (roundHalfEven_le_iff n (2 ^ 11) (2 ^ 52) (by decide) (by decide)).mpr (by omega)
    have hge := div_le_roundHalfEven n (2 ^ 11)
    omega
  rw [nearest_integer negative (by omega) hlog, hround]
  obtain ⟨x, hx⟩ := pack_normal negative (2 ^ 52) (1074 + 11) (by decide) (by decide) (by decide)
  obtain ⟨hnegative, hunits⟩ := units_of_pack hx
  refine ⟨x, hx, hnegative, ?_⟩
  rw [hunits, Finite.two_pow_add, ← Nat.mul_assoc, ← Nat.pow_add]

/-- Beyond it an integer is rounded to something greater. -/
theorem lt_units_of_nearest_far {negative : Bool} {n : Nat} {x : Finite} (h : 2 ^ 63 + 1024 < n)
    (hx : nearest negative n 1 = .finite x) : 2 ^ 63 * Finite.unitsPerOne < x.units := by
  have hlog : 63 ≤ n.log2 := (Nat.le_log2 (by omega)).mpr (by omega)
  obtain ⟨k, hk⟩ : ∃ k, n.log2 = 52 + (11 + k) := ⟨n.log2 - 63, by omega⟩
  rw [nearest_integer negative (by omega) hk] at hx
  obtain ⟨-, hunits⟩ := units_of_pack hx
  have hround : 2 ^ 63 < roundHalfEven n (2 ^ (11 + k)) * 2 ^ (11 + k) := by
    cases k with
    | zero =>
      have hle := (roundHalfEven_le_iff n (2 ^ 11) (2 ^ 52) (by decide) (by decide)).not.mpr (by omega)
      rw [Nat.add_zero]
      omega
    | succ k =>
      have hfirst : 2 ^ 52 ≤ n / 2 ^ (11 + (k + 1)) := by
        rw [Nat.le_div_iff_mul_le (by positivity), ← Nat.pow_add, ← hk]
        exact Nat.log2_self_le (by omega)
      have hfloor := div_le_roundHalfEven n (2 ^ (11 + (k + 1)))
      calc 2 ^ 63 < 2 ^ 52 * 2 ^ 12 := by decide
        _ ≤ roundHalfEven n (2 ^ (11 + (k + 1))) * 2 ^ (11 + (k + 1)) :=
            Nat.mul_le_mul (hfirst.trans hfloor) (Nat.pow_le_pow_right (by decide) (by omega))
  rw [hunits, Finite.two_pow_add, ← Nat.mul_assoc]
  exact Nat.mul_lt_mul_of_pos_right hround Finite.unitsPerOne_pos

/-- A number below a power of ten has no more digits than the exponent says. -/
theorem decimalLength_le {n k : Nat} (h : n < 10 ^ k) : decimalLength n ≤ k := by
  induction k generalizing n with
  | zero =>
    rw [decimalLength, if_pos (by omega)]
  | succ k ih =>
    rw [decimalLength]
    split
    · omega
    · have := ih (n := n / 10) (by omega)
      omega

/-- An integer is read as the nearest number, or as infinite if it has too many digits. -/
theorem ofDecimal_integer (negative : Bool) {n : Nat} (h : n ≠ 0) :
    ofDecimal negative n 0 =
      if 311 < decimalLength n then .infinite negative else nearest negative n 1 := by
  have htop : ¬(n = 0 ∨ (0 : Int) + decimalLength n < -330) := by omega
  have hlength : (311 < (0 : Int) + decimalLength n) ↔ 311 < decimalLength n := by omega
  simp only [ofDecimal, if_neg htop, hlength, Int.le_refl, if_true, Int.toNat_zero, Nat.pow_eq,
    Nat.pow_zero, Nat.mul_one]

end Binary64

namespace Json

/-- A numeral for an integer just out of range is taken for the end of the range. -/
theorem truncated?_ofDecimal_near (negative : Bool) {n : Nat} (hlow : 2 ^ 63 ≤ n)
    (hhigh : n ≤ 2 ^ 63 + 1024) :
    truncated? (.ofDecimal negative n 0) =
      some (if negative then Int64.minValue else Int64.maxValue) := by
  have hlength : ¬311 < Binary64.decimalLength n := by
    have := Binary64.decimalLength_le (n := n) (k := 20) (by omega)
    omega
  obtain ⟨x, hx, hnegative, hunits⟩ := Binary64.nearest_near negative hlow hhigh
  rw [Binary64.ofDecimal_integer negative (by omega), if_neg hlength, hx]
  cases negative with
  | false => exact truncated?_two_pow (Finite.value_eq_two_pow_iff.mpr ⟨hnegative, hunits⟩)
  | true =>
    have htruncate : x.truncate = -2 ^ 63 := by
      rw [Finite.truncate, hnegative, hunits, Nat.mul_div_cancel _ Finite.unitsPerOne_pos]
      rfl
    rw [truncated?_of_hasInt64 (htruncate ▸ by decide), htruncate]
    rfl

/-- A numeral for an integer further out of range is refused. -/
theorem truncated?_ofDecimal_far (negative : Bool) {n : Nat} (h : 2 ^ 63 + 1024 < n) :
    truncated? (.ofDecimal negative n 0) = none := by
  rw [Binary64.ofDecimal_integer negative (by omega)]
  split
  · rfl
  · rcases hx : Binary64.nearest negative n 1 with x | _ | _
    · exact truncated?_of_lt (Binary64.lt_units_of_nearest_far h hx)
    · rfl
    · rfl

end Json

end ExtensionKit
