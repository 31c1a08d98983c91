import ExtensionKit.Text.Numeral
import Mathlib.Algebra.Group.Nat.Defs
import Mathlib.Data.List.Induction

/-!
# Decimals and hexadecimals

What a natural looks like in decimal: digits all through, no zero at the front unless it is the number
zero, and the number itself for a value. With zeros at the front there is one run of digits for every
number and every length that suffices (`paddedDecimal_numeralValue`). Of hexadecimals the value and a bound
on the number of digits.
-/

namespace ExtensionKit

/-- Decimal digits, of which there is one at least. -/
structure Digits (ds : List Char) : Prop where
  /-- there is a digit -/
  nonempty : ds ≠ []
  /-- there is nothing else -/
  all : ∀ c ∈ ds, Text.isDigit c = true

theorem Digits.exists_cons {ds : List Char} (h : Digits ds) :
    ∃ c rest, ds = c :: rest ∧ Text.isDigit c = true := by
  obtain ⟨c, rest, rfl⟩ := List.exists_cons_of_ne_nil h.nonempty
  exact ⟨c, rest, rfl, h.all c (List.mem_cons_self ..)⟩

theorem Digits.exists_concat {ds : List Char} (h : Digits ds) :
    ∃ before c, ds = before ++ [c] ∧ Text.isDigit c = true := by
  have hlast := h.all _ (List.getLast_mem h.nonempty)
  exact ⟨_, _, (List.dropLast_concat_getLast h.nonempty).symm, hlast⟩

namespace Text

theorem isDigit_digit : ∀ d < 10, isDigit (digit d) = true := by decide

theorem digitValue_digit : ∀ d < 10, digitValue (digit d) = d := by decide

theorem digit_ne_zero : ∀ d < 10, d ≠ 0 → digit d ≠ '0' := by decide

theorem numeralValue_concat (cs : List Char) (c : Char) :
    numeralValue (cs ++ [c]) = 10 * numeralValue cs + digitValue c := by
  rw [numeralValue, List.foldl_append]
  rfl

/-- **The value of a decimal is the number.** -/
theorem numeralValue_decimal (n : Nat) : numeralValue (decimal n) = n := by
  fun_induction decimal n with
  | case1 n h => exact (Nat.zero_add _).trans (digitValue_digit n h)
  | case2 n h ih =>
    rw [numeralValue_concat, ih, digitValue_digit _ (Nat.mod_lt n (by decide))]
    omega

theorem isDigit_of_mem_decimal {n : Nat} {c : Char} (h : c ∈ decimal n) : isDigit c = true := by
  fun_induction decimal n with
  | case1 n hn =>
    rw [List.mem_singleton.mp h]
    exact isDigit_digit n hn
  | case2 n hn ih =>
    rcases List.mem_append.mp h with h | h
    · exact ih h
    · rw [List.mem_singleton.mp h]
      exact isDigit_digit _ (Nat.mod_lt n (by decide))

/-- A decimal has a first digit, which is no zero unless it is the only one. -/
theorem decimal_eq_cons (n : Nat) :
    ∃ c cs, decimal n = c :: cs ∧ (n ≠ 0 → c ≠ '0') ∧ (n = 0 → cs = []) := by
  fun_induction decimal n with
  | case1 n h => exact ⟨digit n, [], rfl, digit_ne_zero n h, fun _ => rfl⟩
  | case2 n h ih =>
    obtain ⟨c, cs, hdecimal, hfirst, -⟩ := ih
    rw [hdecimal]
    exact ⟨c, cs ++ [digit (n % 10)], rfl, fun _ => hfirst (by omega), fun hzero => by omega⟩

theorem length_decimal_le {k n : Nat} (h : n < 10 ^ (k + 1)) : (decimal n).length ≤ k + 1 := by
  induction k generalizing n with
  | zero =>
    have hdigit : n < 10 := h
    rw [decimal, if_pos hdigit]
    exact Nat.le_refl 1
  | succ k ih =>
    rw [decimal]
    split
    · exact Nat.le_add_left 1 _
    · have hdiv : n / 10 < 10 ^ (k + 1) := Nat.div_lt_of_lt_mul (by rwa [Nat.mul_comm, ← Nat.pow_succ])
      rw [List.length_append]
      exact Nat.succ_le_succ (ih hdiv)

/-! ## Runs of digits -/

theorem toNat_of_isDigit {c : Char} (h : isDigit c = true) : 48 ≤ c.toNat ∧ c.toNat ≤ 57 := by
  rw [isDigit, Bool.and_eq_true, decide_eq_true_iff, decide_eq_true_iff] at h
  exact h

theorem digitValue_lt {c : Char} (h : isDigit c = true) : digitValue c < 10 := by
  have hrange := toNat_of_isDigit h
  have hzero : '0'.toNat = 48 := rfl
  rw [digitValue, hzero]
  omega

theorem digit_digitValue {c : Char} (h : isDigit c = true) : digit (digitValue c) = c := by
  have hrange := toNat_of_isDigit h
  have hzero : '0'.toNat = 48 := rfl
  rw [digit, digitValue, hzero, Nat.add_sub_cancel' hrange.1, Char.ofNat_toNat]

/-- The value of a run of digits is bounded by its length. -/
theorem numeralValue_lt {cs : List Char} (h : ∀ c ∈ cs, isDigit c = true) :
    numeralValue cs < 10 ^ cs.length := by
  induction cs using List.reverseRecOn with
  | nil => exact Nat.one_pos
  | append_singleton cs c ih =>
    have hc := digitValue_lt (h c (List.mem_append_right _ (List.mem_singleton_self c)))
    have hcs := ih fun d hd => h d (List.mem_append_left _ hd)
    rw [numeralValue_concat, List.length_append, List.length_singleton, Nat.pow_succ]
    omega

/-- Runs of digits of one length are told apart by their values. -/
theorem eq_of_numeralValue {cs ds : List Char} (hcs : ∀ c ∈ cs, isDigit c = true)
    (hds : ∀ c ∈ ds, isDigit c = true) (hlength : cs.length = ds.length)
    (hvalue : numeralValue cs = numeralValue ds) : cs = ds := by
  induction cs using List.reverseRecOn generalizing ds with
  | nil => exact (List.length_eq_zero_iff.mp hlength.symm).symm
  | append_singleton cs c ih =>
    cases ds using List.reverseRecOn with
    | nil => simp at hlength
    | append_singleton ds d =>
      have hc := hcs c (List.mem_append_right _ (List.mem_singleton_self c))
      have hd := hds d (List.mem_append_right _ (List.mem_singleton_self d))
      have hc' := digitValue_lt hc
      have hd' := digitValue_lt hd
      rw [numeralValue_concat, numeralValue_concat] at hvalue
      have hshorter : cs.length = ds.length := by simpa using hlength
      have hlast : c = d := by
        rw [← digit_digitValue hc, ← digit_digitValue hd]
        exact congrArg digit (by omega)
      rw [hlast, ih (fun e he => hcs e (List.mem_append_left _ he))
        (fun e he => hds e (List.mem_append_left _ he)) hshorter (by omega)]

/-- Zeros after a run of digits. -/
theorem numeralValue_append_zeros (cs : List Char) (k : Nat) :
    numeralValue (cs ++ List.replicate k '0') = numeralValue cs * 10 ^ k := by
  induction k with
  | zero => rw [List.replicate_zero, List.append_nil, Nat.pow_zero, Nat.mul_one]
  | succ k ih =>
    have hzero : digitValue '0' = 0 := rfl
    rw [List.replicate_succ', ← List.append_assoc, numeralValue_concat, ih, hzero, Nat.pow_succ,
      Nat.add_zero, Nat.mul_comm 10, Nat.mul_assoc]

/-- Zeros before a run of digits. -/
theorem numeralValue_zeros_append (k : Nat) (cs : List Char) :
    numeralValue (List.replicate k '0' ++ cs) = numeralValue cs := by
  induction cs using List.reverseRecOn with
  | nil =>
    have hzeros := numeralValue_append_zeros [] k
    rw [List.nil_append] at hzeros
    rw [List.append_nil, hzeros]
    exact Nat.zero_mul _
  | append_singleton cs c ih =>
    rw [← List.append_assoc, numeralValue_concat, numeralValue_concat, ih]

/-- Digits up to where something else begins. -/
theorem takeWhile_digits {ds rest : List Char} (hds : ∀ c ∈ ds, isDigit c = true)
    (hrest : ∀ c cs, rest = c :: cs → isDigit c = false) : (ds ++ rest).takeWhile isDigit = ds := by
  rw [List.takeWhile_append_of_pos hds]
  cases rest with
  | nil => exact List.append_nil ds
  | cons c cs => rw [List.takeWhile_cons, if_neg (by rw [hrest c cs rfl]; decide), List.append_nil]

theorem dropWhile_digits {ds rest : List Char} (hds : ∀ c ∈ ds, isDigit c = true)
    (hrest : ∀ c cs, rest = c :: cs → isDigit c = false) : (ds ++ rest).dropWhile isDigit = rest := by
  rw [List.dropWhile_append_of_pos hds]
  cases rest with
  | nil => rfl
  | cons c cs => rw [List.dropWhile_cons, if_neg (by rw [hrest c cs rfl]; decide)]

/-! ## Padded decimals -/

theorem isDigit_of_mem_paddedDecimal {width n : Nat} {c : Char} (h : c ∈ paddedDecimal width n) :
    isDigit c = true := by
  rcases List.mem_append.mp h with h | h
  · rw [List.eq_of_mem_replicate h]
    rfl
  · exact isDigit_of_mem_decimal h

theorem numeralValue_paddedDecimal (width n : Nat) : numeralValue (paddedDecimal width n) = n := by
  rw [paddedDecimal, numeralValue_zeros_append, numeralValue_decimal]

theorem length_paddedDecimal {width n : Nat} (hwidth : 0 < width) (h : n < 10 ^ width) :
    (paddedDecimal width n).length = width := by
  obtain ⟨k, rfl⟩ := Nat.exists_eq_add_one.mpr hwidth
  have hle := length_decimal_le h
  rw [paddedDecimal, List.length_append, List.length_replicate]
  omega

theorem digits_decimal (n : Nat) : Digits (decimal n) := by
  refine ⟨?_, fun c hc => isDigit_of_mem_decimal hc⟩
  obtain ⟨c, cs, hdecimal, -⟩ := decimal_eq_cons n
  rw [hdecimal]
  exact List.cons_ne_nil c cs

theorem digits_paddedDecimal (width n : Nat) : Digits (paddedDecimal width n) := by
  refine ⟨?_, fun c hc => isDigit_of_mem_paddedDecimal hc⟩
  exact List.append_ne_nil_of_right_ne_nil _ (digits_decimal n).nonempty

/-- **A run of digits is the padded decimal of its value.** -/
theorem paddedDecimal_numeralValue {ds : List Char} (h : Digits ds) :
    paddedDecimal ds.length (numeralValue ds) = ds := by
  have hlength := length_paddedDecimal (List.length_pos_iff.mpr h.nonempty) (numeralValue_lt h.all)
  refine eq_of_numeralValue (fun c hc => isDigit_of_mem_paddedDecimal hc) h.all hlength ?_
  exact numeralValue_paddedDecimal _ _

/-! ## Hexadecimals -/

theorem hexDigitValue?_hexDigit : ∀ d < 16, hexDigitValue? (hexDigit d) = some d := by decide

/-- The value of a run of hexadecimal digits, if all of its characters are. -/
def hexadecimalValue? (cs : List Char) : Option Nat :=
  cs.foldlM (fun n c => (hexDigitValue? c).map (16 * n + ·)) 0

theorem hexadecimalValue?_concat (cs : List Char) (c : Char) :
    hexadecimalValue? (cs ++ [c]) =
      (hexadecimalValue? cs).bind fun n => (hexDigitValue? c).map (16 * n + ·) := by
  rw [hexadecimalValue?, List.foldlM_append]
  simp only [List.foldlM_cons, List.foldlM_nil, bind_pure]
  rfl

/-- **The value of a hexadecimal is the number.** -/
theorem hexadecimalValue?_hexadecimal (n : Nat) : hexadecimalValue? (hexadecimal n) = some n := by
  fun_induction hexadecimal n with
  | case1 n h =>
    rw [← List.nil_append [hexDigit n], hexadecimalValue?_concat, hexDigitValue?_hexDigit n h]
    exact congrArg some (Nat.zero_add n)
  | case2 n h ih =>
    rw [hexadecimalValue?_concat, ih, hexDigitValue?_hexDigit _ (Nat.mod_lt n (by decide))]
    exact congrArg some (Nat.div_add_mod n 16)

theorem hexadecimal_ne_nil (n : Nat) : hexadecimal n ≠ [] := by
  rw [hexadecimal]
  split
  · exact List.cons_ne_nil _ _
  · exact List.append_ne_nil_of_right_ne_nil _ (List.cons_ne_nil _ _)

theorem length_hexadecimal_le {k n : Nat} (h : n < 16 ^ (k + 1)) :
    (hexadecimal n).length ≤ k + 1 := by
  induction k generalizing n with
  | zero =>
    have hdigit : n < 16 := h
    rw [hexadecimal, if_pos hdigit]
    exact Nat.le_refl 1
  | succ k ih =>
    rw [hexadecimal]
    split
    · exact Nat.le_add_left 1 _
    · have hdiv : n / 16 < 16 ^ (k + 1) := Nat.div_lt_of_lt_mul (by rwa [Nat.mul_comm, ← Nat.pow_succ])
      rw [List.length_append]
      exact Nat.succ_le_succ (ih hdiv)

end Text

end ExtensionKit
