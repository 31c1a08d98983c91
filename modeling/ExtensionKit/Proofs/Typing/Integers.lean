import ExtensionKit.Proofs.Binary64.Nearest
import ExtensionKit.Proofs.Text.IntegerText

/-!
# Coercion to integers

What becomes of numbers and of texts of integers when they are coerced to integers of 64 bits. An integer
part that has 64 bits is always taken as it is (`Json.TakesExactly`). One that has not is refused, but for
the places where a binary number stands between the value and the result:

* `2 ^ 63` as a binary number is taken for the greatest integer;
* a text that is refused as an integer is read again as a binary number, so an integer that is out of range
  by no more than the rounding takes away is taken for the end of the range (`Json.toInt64_string`).
-/

namespace ExtensionKit

/-- The rational that a number stands for. -/
def Number.value : Number → ℚ
  | .integer i _ => i
  | .float x => x.value

theorem integerPart_intCast (i : Int) : integerPart i = i := by
  rw [integerPart, Int.floor_intCast, Int.ceil_intCast, ite_self]

namespace Json

/-- A value is coerced to an integer exactly: the result is this integer if it has 64 bits, and an error if
not. -/
structure TakesExactly (raw : Json) (i : Int) : Prop where
  /-- an integer of 64 bits is the result -/
  taken : HasInt64 i → ∃ j, raw.toInt64 = .ok j ∧ j.toInt = i
  /-- another one is refused -/
  refused : ¬HasInt64 i → ∃ e, raw.toInt64 = .error e

theorem takesExactly_of_hasInt64 {raw : Json} {i : Int} (h : HasInt64 i)
    (hraw : raw.toInt64 = .ok (.ofInt i)) : raw.TakesExactly i :=
  ⟨fun _ => ⟨_, hraw, h.toInt_ofInt⟩, fun hnot => absurd h hnot⟩

theorem takesExactly_of_error {raw : Json} {i : Int} {e : CoercionError} (h : ¬HasInt64 i)
    (hraw : raw.toInt64 = .error e) : raw.TakesExactly i :=
  ⟨fun hfits => absurd hfits h, fun _ => ⟨e, hraw⟩⟩

/-- A result for an integer that does not have 64 bits is not exact. -/
theorem not_takesExactly {raw : Json} {i : Int} {j : Int64} (h : ¬HasInt64 i)
    (hraw : raw.toInt64 = .ok j) : ¬raw.TakesExactly i := by
  intro hexact
  obtain ⟨e, he⟩ := hexact.refused h
  rw [hraw] at he
  cases he

/-! ## Numbers -/

/-- Integers are taken exactly. -/
theorem takesExactly_integer (i : Int) (bounded : -0x8000000000000000 ≤ i ∧ i < 0x10000000000000000) :
    (Json.number (.integer i bounded)).TakesExactly i := by
  by_cases h : i < 0x8000000000000000
  · refine takesExactly_of_hasInt64 ⟨bounded.1, by omega⟩ ?_
    rw [toInt64, if_pos h]
  · refine takesExactly_of_error
      (e := ⟨.number (.integer i bounded), .int64, some (.notInteger .tooLarge)⟩) ?_ ?_
    · exact fun hfits => h (by have := hfits.2; omega)
    · rw [toInt64, if_neg h]
      rfl

theorem toInt64_float (x : Finite) :
    (Json.number (.float x)).toInt64 =
      match truncated? (.finite x) with
      | some i => .ok i
      | none => CoercionError.refuse (.number (.float x)) .int64 := by
  unfold toInt64
  rfl

/-- The one binary number that is not taken exactly. -/
theorem toInt64_two_pow {x : Finite} (h : x.value = 2 ^ 63) :
    (Json.number (.float x)).toInt64 = .ok Int64.maxValue := by
  rw [toInt64_float, truncated?_two_pow h]

/-- **Other binary numbers are taken exactly**, toward zero. -/
theorem takesExactly_float {x : Finite} (h : x.value ≠ 2 ^ 63) :
    (Json.number (.float x)).TakesExactly (integerPart x.value) := by
  rw [Finite.integerPart_value]
  by_cases hfits : HasInt64 x.truncate
  · refine takesExactly_of_hasInt64 hfits ?_
    rw [toInt64_float, truncated?_of_hasInt64 hfits]
  · refine takesExactly_of_error (e := ⟨.number (.float x), .int64, none⟩) hfits ?_
    rw [toInt64_float, truncated?_eq_none hfits h]
    rfl

/-! ## Texts -/

/-- A text is read as an integer, or else as a number that is truncated. -/
theorem toInt64_nonblank {s : String} (h : Text.trim s.toList ≠ []) :
    (Json.string s).toInt64 =
      match integerOfText? (Text.trim s.toList) with
      | .ok i => .ok i
      | .error fault =>
        match (Binary64.ofText? (Text.trim s.toList)).bind truncated? with
        | some i => .ok i
        | none => CoercionError.refuseFor (.notInteger fault) (.string s) .int64 := by
  rw [toInt64]
  rcases htrim : Text.trim s.toList with _ | ⟨c, cs⟩
  · exact absurd htrim h
  · rfl

/-- An integer that does not have 64 bits has a magnitude of `2 ^ 63` at least. -/
theorem two_pow_le_natAbs {i : Int} (h : ¬HasInt64 i) : 2 ^ 63 ≤ i.natAbs := by
  rw [HasInt64] at h
  omega

/-- **The text of an integer** is taken for the integer if that has 64 bits, for the end of the range if it
is out of range by 1024 or less, and is refused if it is further out. -/
theorem toInt64_string {s : String} {i : Int} (h : IntegerText (Text.trim s.toList) i) :
    (Json.string s).toInt64 =
      if HasInt64 i then .ok (.ofInt i)
      else if i.natAbs ≤ 2 ^ 63 + 1024 then .ok (if i < 0 then Int64.minValue else Int64.maxValue)
      else CoercionError.refuseFor (.notInteger (.beyond (decide (i < 0)))) (.string s) .int64 := by
  rw [toInt64_nonblank h.ne_nil, integerOfText?_eq h]
  by_cases hfits : HasInt64 i
  · rw [if_pos hfits, if_pos hfits]
  · have hlarge := two_pow_le_natAbs hfits
    obtain ⟨negative, hsigned, hread⟩ := Binary64.ofText?_eq h
    have hsign : i < 0 ↔ negative = true := by
      rw [hsigned]
      cases negative with
      | true => simp only [signed, if_true, iff_true]; omega
      | false => simp only [signed, Bool.false_eq_true, if_false, iff_false]; omega
    rw [if_neg hfits, if_neg hfits, hread, Option.bind_some]
    simp only [hsign]
    by_cases hnear : i.natAbs ≤ 2 ^ 63 + 1024
    · rw [truncated?_ofDecimal_near negative hlarge hnear, if_pos hnear]
    · rw [truncated?_ofDecimal_far negative (Nat.lt_of_not_le hnear), if_neg hnear]

/-! ## The main statement -/

/-- **When coercion to integers is exact.**

* A number is taken exactly, by the integer part of what it stands for, unless it is the binary number
  `2 ^ 63`, which is taken for the greatest integer.
* The text of an integer is taken exactly if the integer has 64 bits or is out of range by more than 1024.
  In between it is taken for the end of the range. -/
theorem toInt64_exact_iff (n : Number) (s : String) (i : Int) :
    (((Json.number n).TakesExactly (integerPart n.value) ↔ ∀ x, n = .float x → x.value ≠ 2 ^ 63) ∧
      ∀ x, n = .float x → x.value = 2 ^ 63 → (Json.number n).toInt64 = .ok Int64.maxValue) ∧
    (IntegerText (Text.trim s.toList) i →
      ((Json.string s).TakesExactly i ↔ HasInt64 i ∨ 2 ^ 63 + 1024 < i.natAbs) ∧
      (¬HasInt64 i → i.natAbs ≤ 2 ^ 63 + 1024 →
        (Json.string s).toInt64 = .ok (if i < 0 then Int64.minValue else Int64.maxValue))) := by
  constructor
  · constructor
    · cases n with
      | integer i bounded =>
        refine iff_of_true ?_ nofun
        rw [Number.value, integerPart_intCast]
        exact takesExactly_integer i bounded
      | float x =>
        refine ⟨?_, fun h => takesExactly_float (h x rfl)⟩
        intro hexact y hy hx
        obtain rfl := Number.float.inj hy
        refine not_takesExactly ?_ (toInt64_two_pow hx) hexact
        have hpart : integerPart (2 ^ 63) = (2 ^ 63 : Int) := by
          rw [← integerPart_intCast (2 ^ 63), Int.cast_pow, Int.cast_ofNat]
        rw [Number.value, hx, hpart]
        decide
    · rintro x rfl hx
      exact toInt64_two_pow hx
  · intro h
    have hresult := toInt64_string h
    by_cases hfits : HasInt64 i
    · rw [if_pos hfits] at hresult
      exact ⟨iff_of_true (takesExactly_of_hasInt64 hfits hresult) (.inl hfits), fun h => absurd hfits h⟩
    · rw [if_neg hfits] at hresult
      by_cases hnear : i.natAbs ≤ 2 ^ 63 + 1024
      · rw [if_pos hnear] at hresult
        refine ⟨iff_of_false (not_takesExactly hfits hresult) ?_, fun _ _ => hresult⟩
        exact not_or.mpr ⟨hfits, by omega⟩
      · rw [if_neg hnear] at hresult
        exact ⟨iff_of_true (takesExactly_of_error hfits hresult) (.inr (by omega)),
          fun _ h => absurd h hnear⟩

/-- The first integer that is out of range by more than 1024 is refused, with a sign and white space
around it. -/
theorem toInt64_exact_beyond :
    IntegerText (Text.trim " +9223372036854776833\n".toList) 9223372036854776833 ∧
      (Json.string " +9223372036854776833\n").TakesExactly 9223372036854776833 := by
  have htext : IntegerText (Text.trim " +9223372036854776833\n".toList) 9223372036854776833 := by
    have digits : Digits "9223372036854776833".toList := ⟨by decide, List.all_eq_true.mp (by decide)⟩
    exact .plus digits
  exact ⟨htext, ((toInt64_exact_iff (.ofInt64 0) _ _).2 htext).1.mpr (.inr (by decide))⟩

/-- Integers just out of range are not refused, as texts on either side and as a binary number. -/
theorem toInt64_inexact :
    (Json.string "9223372036854775808").toInt64 = .ok Int64.maxValue ∧
    ¬(Json.string "9223372036854775808").TakesExactly 9223372036854775808 ∧
    (Json.string "-9223372036854775809").toInt64 = .ok Int64.minValue ∧
    ¬(Json.string "-9223372036854775809").TakesExactly (-9223372036854775809) ∧
    ∃ x : Finite, x.value = 2 ^ 63 ∧ (Json.number (.float x)).toInt64 = .ok Int64.maxValue := by
  have hlarge : IntegerText (Text.trim "9223372036854775808".toList) 9223372036854775808 := by
    have digits : Digits "9223372036854775808".toList := ⟨by decide, List.all_eq_true.mp (by decide)⟩
    exact .unsigned digits
  have hsmall : IntegerText (Text.trim "-9223372036854775809".toList) (-9223372036854775809) := by
    have digits : Digits "9223372036854775809".toList := ⟨by decide, List.all_eq_true.mp (by decide)⟩
    exact .minus digits
  have hmax : (Json.string "9223372036854775808").toInt64 = .ok Int64.maxValue := by
    rw [toInt64_string hlarge, if_neg (by decide), if_pos (by decide), if_neg (by decide)]
  have hmin : (Json.string "-9223372036854775809").toInt64 = .ok Int64.minValue := by
    rw [toInt64_string hsmall, if_neg (by decide), if_pos (by decide), if_pos (by decide)]
  obtain ⟨x, -, hpositive, hunits⟩ := Binary64.nearest_near false (n := 2 ^ 63) (by decide) (by decide)
  have hx : x.value = 2 ^ 63 := Finite.value_eq_two_pow_iff.mpr ⟨hpositive, hunits⟩
  exact ⟨hmax, not_takesExactly (by decide) hmax, hmin, not_takesExactly (by decide) hmin, x, hx,
    toInt64_two_pow hx⟩

end Json

end ExtensionKit
