import ExtensionKit.Proofs.Calendar.Lenient
import ExtensionKit.Proofs.Typing.DateTimeText
import ExtensionKit.Proofs.Typing.Fits

/-!
# Dates from seconds

A date that is made of seconds since the epoch is the second that it is made of, in UTC
(`DateTime.unixSeconds_ofUnixSeconds`). Its text is read back in the years that are written with four digits;
the dates before and after them have a text that no form of a date takes
(`Coercion.toDateTime_seconds_readBack`).
-/

namespace ExtensionKit

namespace DateTime

/-! ## Seconds since the epoch -/

/-- **The date of a second is that second.** -/
theorem unixSeconds_ofUnixSeconds (n : Int) : (ofUnixSeconds n).unixSeconds = n := by
  simp only [ofUnixSeconds, unixSeconds, Date.dayNumber_ofDayNumber]
  omega

theorem time_ofUnixSeconds (n : Int) : (ofUnixSeconds n).hour < 24 ∧ (ofUnixSeconds n).minute < 60 ∧
    (ofUnixSeconds n).second < 60 := by
  simp only [ofUnixSeconds]
  omega

/-- The seconds of the years that are written with four digits. -/
theorem year_ofUnixSeconds_iff (n : Int) :
    0 ≤ (ofUnixSeconds n).date.year ∧ (ofUnixSeconds n).date.year ≤ 9999 ↔
      -62167219200 ≤ n ∧ n ≤ 253402300799 := by
  have hfirst : Date.daysBeforeYear 0 = -366 := rfl
  have hlast : Date.daysBeforeYear 10000 = 3652059 := rfl
  have hepoch : Date.daysBefore1970 = 719162 := rfl
  have hyear : (ofUnixSeconds n).date.year ≤ 9999 ↔ ¬10000 ≤ (ofUnixSeconds n).date.year := by omega
  rw [hyear, ofUnixSeconds, Date.le_year_ofDayNumber_iff, Date.le_year_ofDayNumber_iff, hfirst, hlast,
    hepoch]
  omega

/-- The text of a date begins with the sign of its year exactly if four digits do not suffice for it. -/
theorem text_signed_iff {t : DateTime} :
    (∃ sign rest, t.text = sign :: rest ∧ (sign = '+' ∨ sign = '-')) ↔
      ¬(0 ≤ t.date.year ∧ t.date.year ≤ 9999) := by
  constructor
  · rintro ⟨sign, rest, htext, hsign⟩ hyear
    obtain ⟨c, cs, hdigits, hc⟩ := (Text.digits_paddedDecimal 4 t.date.year.natAbs).exists_cons
    rw [text_eq, yearText, if_pos hyear, hdigits, List.cons_append] at htext
    obtain ⟨rfl, -⟩ := List.cons.inj htext
    rcases hsign with rfl | rfl <;> cases hc
  · intro hyear
    rw [text_eq, yearText_signed hyear, List.cons_append]
    refine ⟨_, _, rfl, ?_⟩
    split
    · exact .inr rfl
    · exact .inl rfl

/-- Which dates made of seconds are read from their texts. -/
theorem ofText?_text_ofUnixSeconds (n : Int) : ofText? (ofUnixSeconds n).text =
    if -62167219200 ≤ n ∧ n ≤ 253402300799 then some (ofUnixSeconds n) else none := by
  have valid : (ofUnixSeconds n).date.isValid = true := Date.isValid_ofDayNumber _
  obtain ⟨hhour, hminute, hsecond⟩ := time_ofUnixSeconds n
  have time : (ofUnixSeconds n).hour < 24 ∧ (ofUnixSeconds n).minute < 60 ∧
      (ofUnixSeconds n).second ≤ 60 := ⟨hhour, hminute, Nat.le_of_lt hsecond⟩
  split
  · next h =>
    exact ofText?_text ((year_ofUnixSeconds_iff n).mpr h) valid time (show 0 < 1000000000 by decide)
      (show 0 < 1440 by decide)
  · next h => exact ofText?_text_eq_none (mt (year_ofUnixSeconds_iff n).mp h) valid time

end DateTime

namespace Coercion

/-- What the coercion of an integer gives is the date of that second. -/
theorem eq_ofUnixSeconds_of_toDateTime {n : Int} {bounded} {v : Value}
    (h : toDateTime.apply (.number (.integer n bounded)) = .ok v) :
    v = .datetime (.ofUnixSeconds n) := by
  obtain ⟨t, ht, rfl⟩ := map_eq_ok h
  rw [Json.toDateTime, DateTime.ofUnixSeconds?] at ht
  split at ht
  · next u hu =>
    split at hu
    · obtain rfl := Option.some.inj hu
      rw [Except.ok.inj ht]
    · cases hu
  · cases ht

/-- **Which dates made of seconds are read back.** A date that the coercion makes of an integer is that
second since the epoch, in UTC, without a fraction and no leap second. Its JSON is its text. The coercion of
that is the same date if the year has four digits, from the first second of the year 0 to the last of the
year 9999. Otherwise the text begins with the sign of the year, and the coercion fails, because the text has
no form of a date. -/
theorem toDateTime_seconds_readBack {n : Int} {bounded} {v : Value}
    (accepted : toDateTime.apply (.number (.integer n bounded)) = .ok v) :
    ∃ t, v = .datetime t ∧
      (t.unixSeconds = n ∧ t.nanosecond = 0 ∧ t.second < 60 ∧ t.offset = 0) ∧
      (0 ≤ t.date.year ∧ t.date.year ≤ 9999 ↔ -62167219200 ≤ n ∧ n ≤ 253402300799) ∧
      v.toJson = .string (String.ofList t.text) ∧
      ((∃ sign rest, t.text = sign :: rest ∧ (sign = '+' ∨ sign = '-')) ↔
        ¬(-62167219200 ≤ n ∧ n ≤ 253402300799)) ∧
      toDateTime.apply v.toJson =
        if -62167219200 ≤ n ∧ n ≤ 253402300799 then .ok v
        else .error ⟨v.toJson, .datetime, some .notDate⟩ := by
  obtain rfl := eq_ofUnixSeconds_of_toDateTime accepted
  obtain ⟨-, -, hsecond⟩ := DateTime.time_ofUnixSeconds n
  have hyear := DateTime.year_ofUnixSeconds_iff n
  refine ⟨_, rfl, ⟨DateTime.unixSeconds_ofUnixSeconds n, rfl, hsecond, rfl⟩, hyear, rfl,
    DateTime.text_signed_iff.trans (not_congr hyear), ?_⟩
  have hread := DateTime.ofText?_text_ofUnixSeconds n
  rw [← DateTime.trim_text (show (0 : Int).natAbs < 1440 by decide)] at hread
  rw [apply, Value.toJson, Json.toDateTime, String.toList_ofList, hread]
  by_cases hrange : -62167219200 ≤ n ∧ n ≤ 253402300799
  · rw [if_pos hrange, if_pos hrange]
    rfl
  · rw [if_neg hrange, if_neg hrange]
    rfl

/-- The last second that has four digits for its year. -/
theorem toDateTime_seconds_readBack_last :
    let t : DateTime := ⟨⟨9999, 12, 31⟩, 23, 59, 59, 0, 0⟩
    t.text = "9999-12-31T23:59:59+00:00".toList ∧
      toDateTime.apply (.number (.integer 253402300799 (by decide))) = .ok (.datetime t) ∧
      toDateTime.apply (Value.datetime t).toJson = .ok (.datetime t) := by
  intro t
  have accepted : toDateTime.apply (.number (.integer 253402300799 (by decide))) = .ok (.datetime t) := by
    rfl
  obtain ⟨-, -, -, -, -, -, hread⟩ := toDateTime_seconds_readBack accepted
  exact ⟨by decide +kernel, accepted, hread⟩

/-- The second after it is not read back: its year has five digits. -/
theorem toDateTime_seconds_notReadBack :
    let t : DateTime := ⟨⟨10000, 1, 1⟩, 0, 0, 0, 0, 0⟩
    t.text = "+10000-01-01T00:00:00+00:00".toList ∧
      toDateTime.apply (.number (.integer 253402300800 (by decide))) = .ok (.datetime t) ∧
      ∀ v, toDateTime.apply (Value.datetime t).toJson ≠ .ok v := by
  intro t
  refine ⟨by decide +kernel, rfl, ?_⟩
  have hnone : DateTime.ofText? (Text.trim t.text) = none := by decide +kernel
  rw [apply, Value.toJson, Json.toDateTime, String.toList_ofList, hnone]
  intro v h
  cases h

end Coercion

end ExtensionKit
