import ExtensionKit.Proofs.Binary64.Truncation
import ExtensionKit.Proofs.Text.Numeral
import Mathlib.Data.List.TakeWhile

/-!
# Texts of integers

The text of an integer is an optional sign and decimal digits, with or without zeros at the front
(`IntegerText`). Both readers of numbers take every such text: as an integer it is read exactly if that
has 64 bits, and refused as too large or too small if not (`integerOfText?_eq`); as a binary number it is
read without regard to its size, and rounded (`Binary64.ofText?_eq`).
-/

namespace ExtensionKit

/-- A text in decimal and the integer that it stands for. -/
inductive IntegerText : List Char → Int → Prop
  | unsigned {ds : List Char} (digits : Digits ds) : IntegerText ds (Text.numeralValue ds)
  | plus {ds : List Char} (digits : Digits ds) : IntegerText ('+' :: ds) (Text.numeralValue ds)
  | minus {ds : List Char} (digits : Digits ds) : IntegerText ('-' :: ds) (-Text.numeralValue ds)

/-- A magnitude with a sign. -/
def signed (negative : Bool) (n : Nat) : Int := if negative then -n else n

/-- What is said of an integer that does not have 64 bits. -/
def IntegerFault.beyond (negative : Bool) : IntegerFault := if negative then .tooSmall else .tooLarge

theorem natAbs_signed (negative : Bool) (n : Nat) : (signed negative n).natAbs = n := by
  cases negative
  · exact Int.natAbs_natCast n
  · exact Int.natAbs_neg n

/-- The sign of the text of an integer, and its digits. -/
theorem IntegerText.split {cs : List Char} {i : Int} (h : IntegerText cs i) :
    ∃ negative ds, Digits ds ∧ splitSign cs = (negative, ds) ∧
      i = signed negative (Text.numeralValue ds) := by
  cases h with
  | unsigned digits =>
    refine ⟨false, cs, digits, ?_, rfl⟩
    obtain ⟨c, rest, rfl, hc⟩ := digits.exists_cons
    rw [splitSign] <;> rintro _ heq <;> rw [(List.cons.inj heq).1] at hc <;> cases hc
  | plus digits => exact ⟨false, _, digits, rfl, rfl⟩
  | minus digits => exact ⟨true, _, digits, rfl, rfl⟩

theorem IntegerText.ne_nil {cs : List Char} {i : Int} (h : IntegerText cs i) : cs ≠ [] := by
  cases h with
  | unsigned digits => exact digits.nonempty
  | plus digits => exact List.cons_ne_nil _ _
  | minus digits => exact List.cons_ne_nil _ _

/-! ## Read as an integer -/

/-- The value of digits after those of value `n`. -/
def valueFrom (n : Nat) (ds : List Char) : Nat :=
  ds.foldl (fun n c => 10 * n + Text.digitValue c) n

/-- More digits do not make a value less. -/
theorem le_valueFrom (n : Nat) (ds : List Char) : n ≤ valueFrom n ds := by
  induction ds generalizing n with
  | nil => exact Nat.le_refl n
  | cons c rest ih =>
    have h := ih (10 * n + Text.digitValue c)
    rw [valueFrom, List.foldl_cons]
    rw [valueFrom] at h
    omega

/-- Digits are read up to the end, or up to the first one that leads out of range. -/
theorem integerOfText?.go_eq (negative : Bool) {n : Nat} {ds : List Char} (hn : HasInt64 (signed negative n))
    (hds : ∀ c ∈ ds, Text.isDigit c = true) :
    integerOfText?.go negative n ds =
      if HasInt64 (signed negative (valueFrom n ds)) then
        .ok (.ofInt (signed negative (valueFrom n ds)))
      else .error (.beyond negative) := by
  induction ds generalizing n with
  | nil =>
    rw [integerOfText?.go, valueFrom, List.foldl_nil, if_pos hn, signed]
    split <;> rfl
  | cons c rest ih =>
    have hrest := fun d hd => hds d (List.mem_cons_of_mem c hd)
    have hvalue : valueFrom n (c :: rest) = valueFrom (10 * n + Text.digitValue c) rest := rfl
    have hle := le_valueFrom (10 * n + Text.digitValue c) rest
    rw [integerOfText?.go, if_pos (hds c (List.mem_cons_self ..)), hvalue]
    generalize 10 * n + Text.digitValue c = m at *
    cases negative with
    | true =>
      rw [if_pos rfl]
      split
      · next hm =>
        rw [if_neg]
        · rfl
        · rw [HasInt64, signed, if_pos rfl]
          omega
      · next hm =>
        refine ih ?_ hrest
        rw [HasInt64, signed, if_pos rfl]
        omega
    | false =>
      rw [if_neg (by decide)]
      split
      · next hm =>
        rw [if_neg]
        · rfl
        · rw [HasInt64, signed, if_neg (by decide)]
          omega
      · next hm =>
        refine ih ?_ hrest
        rw [HasInt64, signed, if_neg (by decide)]
        omega

/-- **The text of an integer is read exactly**, or refused if it does not have 64 bits. -/
theorem integerOfText?_eq {cs : List Char} {i : Int} (h : IntegerText cs i) :
    integerOfText? cs = if HasInt64 i then .ok (.ofInt i) else .error (.beyond (decide (i < 0))) := by
  obtain ⟨negative, ds, digits, hsplit, rfl⟩ := h.split
  have hzero : HasInt64 (signed negative 0) := by cases negative <;> decide
  have hread := integerOfText?.go_eq negative hzero digits.all
  rw [integerOfText?, hsplit]
  simp only [if_neg digits.nonempty]
  rw [hread]
  change (if HasInt64 (signed negative (Text.numeralValue ds)) then _ else _) = _
  split
  · rfl
  · next hbeyond =>
    have hsign : decide (signed negative (Text.numeralValue ds) < 0) = negative := by
      cases negative with
      | true =>
        rw [HasInt64, signed, if_pos rfl] at hbeyond
        rw [signed, if_pos rfl, decide_eq_true_iff]
        omega
      | false =>
        rw [signed, if_neg (by decide), decide_eq_false_iff_not]
        omega
    rw [hsign]

/-! ## Read as a binary number -/

/-- Digits alone have no fraction and no exponent. -/
theorem splitMantissa_digits {ds : List Char} (h : ∀ c ∈ ds, Text.isDigit c = true) :
    Binary64.splitMantissa ds = (ds, [], []) := by
  have htake : ds.takeWhile Text.isDigit = ds := List.takeWhile_eq_self_iff.mpr h
  have hdrop : ds.dropWhile Text.isDigit = [] := List.dropWhile_eq_nil_iff.mpr h
  rw [Binary64.splitMantissa, htake, hdrop]

/-- Digits are none of the words for infinity and `nan`. -/
theorem map_toLower_ne_word {ds : List Char} (h : Digits ds) {c : Char} {word : List Char}
    (hc : c = 'i' ∨ c = 'n') : ds.map Char.toLower ≠ c :: word := by
  have hall : ∀ n < 58, 48 ≤ n → (Char.ofNat n).toLower ≠ 'i' ∧ (Char.ofNat n).toLower ≠ 'n' := by
    decide
  obtain ⟨d, rest, rfl, hd⟩ := h.exists_cons
  rw [Text.isDigit, Bool.and_eq_true, decide_eq_true_iff, decide_eq_true_iff] at hd
  have hlower := hall d.toNat (Nat.lt_succ_of_le hd.2) hd.1
  rw [Char.ofNat_toNat] at hlower
  intro heq
  obtain ⟨rfl, -⟩ := List.cons.inj heq
  rcases hc with hc | hc
  · exact hlower.1 hc
  · exact hlower.2 hc

/-- **The text of an integer is read as a binary number** whatever its size. -/
theorem Binary64.ofText?_eq {cs : List Char} {i : Int} (h : IntegerText cs i) :
    ∃ negative, i = signed negative i.natAbs ∧
      Binary64.ofText? cs = some (.ofDecimal negative i.natAbs 0) := by
  obtain ⟨negative, ds, digits, hsplit, rfl⟩ := h.split
  have hword : ∀ word ∈ ["inf", "infinity", "nan"], ds.map Char.toLower ≠ word.toList := by
    intro word hmem
    simp only [List.mem_cons, List.not_mem_nil, or_false] at hmem
    rcases hmem with rfl | rfl | rfl
    · exact map_toLower_ne_word digits (.inl rfl)
    · exact map_toLower_ne_word digits (.inl rfl)
    · exact map_toLower_ne_word digits (.inr rfl)
  have hinfinite : ¬(ds.map Char.toLower = "inf".toList ∨ ds.map Char.toLower = "infinity".toList) :=
    not_or.mpr ⟨hword _ (by decide), hword _ (by decide)⟩
  have hdigit : ¬(ds = [] ∧ True) := fun h => digits.nonempty h.1
  refine ⟨negative, by rw [natAbs_signed], ?_⟩
  rw [natAbs_signed, Binary64.ofText?, hsplit]
  simp only [if_neg hinfinite, if_neg (hword _ (by decide : "nan" ∈ ["inf", "infinity", "nan"])),
    splitMantissa_digits digits.all, if_neg hdigit, List.append_nil]
  rfl

end ExtensionKit
