import ExtensionKit.Proofs.Calendar.Rfc3339
import ExtensionKit.Proofs.Text.Blank
import ExtensionKit.Typing.Coercion

/-!
# Dates as text

Coercion to dates reads the strict form before all others, and the JSON of a date is its text in that form.
So a date read from the strict form is read from its own JSON again, whatever fraction, separator or offset
the first text had (`Coercion.toDateTime_toJson`).
-/

namespace ExtensionKit

namespace Json

/-- A text that is read as a date is coerced to it. -/
theorem toDateTime_of_ofText? {s : String} {t : DateTime}
    (h : DateTime.ofText? (Text.trim s.toList) = some t) : (string s).toDateTime = .ok t := by
  rw [toDateTime, h]

/-- The strict form goes first. -/
theorem toDateTime_of_rfc3339 {s : String} {t : DateTime}
    (h : DateTime.Rfc3339 (Text.trim s.toList) t) : (string s).toDateTime = .ok t := by
  apply toDateTime_of_ofText?
  rw [DateTime.ofText?, DateTime.ofRfc3339?_eq_some_iff.mpr h, Option.some_or]

end Json

namespace Coercion

/-- **A date in the strict form comes back from its JSON.** The strict reader takes a trimmed text exactly if
it has the form of RFC 3339: a day of the calendar in the years 0 to 9999, a time of day or a leap second, a
fraction of any length, an offset of less than a day. Then the coercion of the untrimmed text is the date
that the form says, and the coercion of the JSON of that date is the same date again: the same local date and
time, leap second, nanosecond and offset, and with them the same JSON. -/
theorem toDateTime_toJson (s : String) (t : DateTime) :
    (DateTime.ofRfc3339? (Text.trim s.toList) = some t ↔
      DateTime.Rfc3339 (Text.trim s.toList) t) ∧
    (DateTime.ofRfc3339? (Text.trim s.toList) = some t →
      toDateTime.apply (.string s) = .ok (.datetime t) ∧
        toDateTime.apply (Value.datetime t).toJson = .ok (.datetime t)) := by
  refine ⟨DateTime.ofRfc3339?_eq_some_iff, fun accepted => ?_⟩
  have form := DateTime.ofRfc3339?_eq_some_iff.mp accepted
  have written : DateTime.Rfc3339 (Text.trim (String.ofList t.text).toList) t := by
    rw [String.toList_ofList, form.text.trim_eq_self]
    exact form.text
  constructor
  · rw [apply, Json.toDateTime_of_rfc3339 form]
    rfl
  · rw [Value.toJson, apply, Json.toDateTime_of_rfc3339 written]
    rfl

/-- A leap second on a leap day, between white space, with ten digits of a fraction and a typographic minus
sign: nine digits stay, and the offset is written with a hyphen. -/
theorem toDateTime_toJson_leapSecond :
    toDateTime.apply (.string "\t2024-02-29t23:59:60.1234567899−23:59 ") =
      .ok (.datetime ⟨⟨2024, 2, 29⟩, 23, 59, 60, 123456789, -1439⟩) ∧
    toDateTime.apply (.string "2024-02-29T23:59:60.123456789-23:59") =
      .ok (.datetime ⟨⟨2024, 2, 29⟩, 23, 59, 60, 123456789, -1439⟩) := by
  have htext : (⟨⟨2024, 2, 29⟩, 23, 59, 60, 123456789, -1439⟩ : DateTime).text =
      "2024-02-29T23:59:60.123456789-23:59".toList := by decide +kernel
  rw [← String.ofList_toList (s := "2024-02-29T23:59:60.123456789-23:59"), ← htext]
  exact (toDateTime_toJson "\t2024-02-29t23:59:60.1234567899−23:59 " _).2 (by decide)

end Coercion

end ExtensionKit
