import ExtensionKit.Proofs.Calendar.Lenient
import ExtensionKit.Proofs.List.First
import ExtensionKit.Typing.Coercion

/-!
# The order of the forms of dates

A text is read in at most one of the four forms of dates with times (`DateTime.pairwise_readers`), so it does
not matter in which order they are tried (`Json.toDateTime_anyOrder`). What tells the lenient forms apart is
what follows the day: the letter, white space or a digit, or nothing. The date of a text in the strict form is
read in the lenient forms as well, and so may be its time; but then comes an offset, which they do not take.
-/

namespace ExtensionKit

namespace DateTime

open Text

/-- The readers of the four forms, in the order in which they are tried. -/
def readers : List (List Char → Option DateTime) :=
  [ofRfc3339?, ofLetterSeparated?, ofSpaceSeparated?, ofDate?]

/-- What the first of some readers that takes a text makes of it. -/
def ofTextBy? (order : List (List Char → Option DateTime)) (cs : List Char) : Option DateTime :=
  order.findSome? fun reader => reader cs

theorem ofTextBy?_readers (cs : List Char) : ofTextBy? readers cs = ofText? cs := by
  rw [ofTextBy?, readers, findSome?_cons_eq_or, findSome?_cons_eq_or, findSome?_cons_eq_or,
    findSome?_cons_eq_or, List.findSome?_nil, Option.or_none, ofText?]

variable {cs : List Char} {t : DateTime}

/-! ## What follows the day -/

/-- A lenient form with a time has a separator after the date and then a number. It has no offset. -/
theorem of_lenient? {separator : List Char → Option (List Char)} (h : lenient? separator cs = some t) :
    (∃ rest time hour, lenientDate? cs = some (t.date, rest) ∧ separator rest = some time ∧
      pair? time = some hour) ∧ t.offset = 0 := by
  simp only [lenient?, Option.bind_eq_bind, Option.bind_eq_some_iff, Prod.exists] at h
  obtain ⟨date, rest, hdate, time, htime, hour, _, hhour, _, -, minute, _, -, _, -, second, _, -, hmake⟩ := h
  split at hmake
  · obtain ⟨-, rfl⟩ := make?_eq_some_iff.mp hmake
    exact ⟨⟨rest, time, _, hdate, htime, hhour⟩, rfl⟩
  · cases hmake

/-- After the day comes the letter. -/
theorem of_ofLetterSeparated? (h : ofLetterSeparated? cs = some t) :
    ∃ rest, lenientDate? cs = some (t.date, 'T' :: rest) := by
  obtain ⟨⟨rest, time, hour, hdate, htime, -⟩, -⟩ := of_lenient? h
  rw [expect?_eq_some_iff.mp htime] at hdate
  exact ⟨time, hdate⟩

/-- After the day comes something. -/
theorem of_ofSpaceSeparated? (h : ofSpaceSeparated? cs = some t) :
    ∃ c rest, lenientDate? cs = some (t.date, c :: rest) := by
  obtain ⟨⟨rest, time, hour, hdate, htime, hhour⟩, -⟩ := of_lenient? h
  cases rest with
  | nil =>
    rw [← Option.some.inj htime] at hhour
    cases hhour
  | cons c rest => exact ⟨c, rest, hdate⟩

/-- A date alone is its midnight. -/
theorem eq_midnight_of_ofDate? (h : ofDate? cs = some t) : t = midnight t.date := by
  simp only [ofDate?, Option.bind_eq_bind, Option.bind_eq_some_iff, Prod.exists] at h
  obtain ⟨date, rest, -, hmake⟩ := h
  split at hmake
  · obtain ⟨-, rfl⟩ := make?_eq_some_iff.mp hmake
    rfl
  · cases hmake

/-! ## The strict form -/

/-- The date of a text in the strict form is read in the lenient forms, up to the separator. -/
theorem lenientDate?_strictText (year : 0 ≤ t.date.year ∧ t.date.year ≤ 9999)
    (valid : t.date.isValid = true) (separator : Char) (fraction zone : List Char) :
    lenientDate? (t.strictText separator fraction zone) =
      some (t.date, separator :: (paddedDecimal 2 t.hour ++ ':' :: (paddedDecimal 2 t.minute ++
        ':' :: (paddedDecimal 2 t.second ++ (fraction ++ zone))))) := by
  obtain ⟨-, hmonth, -, hday⟩ := Date.bounds_of_isValid valid
  have hyear : ∀ rest, year? (paddedDecimal 4 t.date.year.natAbs ++ rest) = some (t.date.year, rest) := by
    intro rest
    rw [year?_paddedDecimal (by omega), Int.natAbs_of_nonneg year.1]
  rw [strictText_eq]
  exact lenientDate?_of_year? (show t.date.month < 100 by omega) (show t.date.day < 100 by omega) (hyear _)

/-- **A text in the strict form is in no other.** -/
theorem Rfc3339.lenient_eq_none (h : Rfc3339 cs t) :
    ofLetterSeparated? cs = none ∧ ofSpaceSeparated? cs = none ∧ ofDate? cs = none := by
  obtain ⟨separator, hseparator, fraction, zone, -, hzone, rfl⟩ := h.written
  have hdate := lenientDate?_strictText h.year h.valid separator fraction zone
  obtain ⟨hhour, hminute, hsecond⟩ : t.hour < 100 ∧ t.minute < 100 ∧ t.second < 100 := by
    have htime := h.time
    omega
  have htail : fraction ++ zone ≠ [] := by
    obtain ⟨c, rest, rfl, -⟩ := hzone.exists_cons
    exact List.append_ne_nil_of_right_ne_nil _ (List.cons_ne_nil c rest)
  refine ⟨?_, ?_, ofDate?_eq_none hdate (List.cons_ne_nil _ _)⟩
  · by_cases hletter : separator = 'T'
    · subst hletter
      exact lenient?_eq_none_of_tail hhour hminute hsecond hdate (expect?_eq_some_iff.mpr rfl) htail
    · by_contra hsome
      obtain ⟨u, hu⟩ := Option.ne_none_iff_exists'.mp hsome
      obtain ⟨rest, hrest⟩ := of_ofLetterSeparated? hu
      rw [hdate] at hrest
      exact hletter (List.cons.inj (Prod.mk.inj (Option.some.inj hrest)).2).1
  · by_cases hspace : separator = ' '
    · subst hspace
      refine lenient?_eq_none_of_tail hhour hminute hsecond hdate (congrArg some ?_) htail
      obtain ⟨c, ds, hdigits, hc⟩ := (digits_paddedDecimal 2 t.hour).exists_cons
      rw [hdigits, List.cons_append]
      exact trimStart_cons (isBlank_of_isDigit hc) _
    · have hletter : separator = 'T' ∨ separator = 't' := by
        simpa [hspace] using hseparator
      rcases hletter with rfl | rfl
      · exact ofSpaceSeparated?_eq_none hdate (by decide) (by decide)
      · exact ofSpaceSeparated?_eq_none hdate (by decide) (by decide)

/-- **No text is read in two forms.** -/
theorem pairwise_readers (cs : List Char) : readers.Pairwise fun r r' => r cs = none ∨ r' cs = none := by
  have hstrict : ofRfc3339? cs = none ∨
      ofLetterSeparated? cs = none ∧ ofSpaceSeparated? cs = none ∧ ofDate? cs = none := by
    rcases h : ofRfc3339? cs with _ | t
    · exact .inl rfl
    · exact .inr (ofRfc3339?_eq_some_iff.mp h).lenient_eq_none
  have hletter : ofLetterSeparated? cs = none ∨ ofSpaceSeparated? cs = none ∧ ofDate? cs = none := by
    rcases h : ofLetterSeparated? cs with _ | t
    · exact .inl rfl
    · obtain ⟨rest, hdate⟩ := of_ofLetterSeparated? h
      exact .inr ⟨ofSpaceSeparated?_eq_none hdate (by decide) (by decide),
        ofDate?_eq_none hdate (List.cons_ne_nil _ _)⟩
  have hspace : ofSpaceSeparated? cs = none ∨ ofDate? cs = none := by
    rcases h : ofSpaceSeparated? cs with _ | t
    · exact .inl rfl
    · obtain ⟨c, rest, hdate⟩ := of_ofSpaceSeparated? h
      exact .inr (ofDate?_eq_none hdate (List.cons_ne_nil _ _))
  simp only [readers, List.pairwise_cons, List.mem_cons, List.not_mem_nil, or_false, forall_eq_or_imp,
    forall_eq, false_imp_iff, implies_true, List.Pairwise.nil, and_true]
  tauto

/-- **All orders of the readers** make the same of a text. -/
theorem ofTextBy?_perm {order : List (List Char → Option DateTime)} (perm : order.Perm readers)
    (cs : List Char) : ofTextBy? order cs = ofText? cs := by
  rw [← ofTextBy?_readers]
  exact (findSome?_perm perm.symm (pairwise_readers cs)).symm

/-- What one reader makes of a text is what the text says. -/
theorem ofText?_of_mem_readers {reader : List Char → Option DateTime} (h : reader ∈ readers)
    (ht : reader cs = some t) : ofText? cs = some t := by
  rw [← ofTextBy?_readers]
  exact findSome?_of_mem (pairwise_readers cs) h ht

end DateTime

/-! ## The main statement -/

namespace Json

open DateTime

/-- Takes texts and seconds since the epoch to dates, with an order in which the forms are tried. -/
def toDateTimeBy (order : List (List Char → Option DateTime)) (raw : Json) : Except CoercionError DateTime :=
  match raw with
  | .string s =>
    match ofTextBy? order (Text.trim s.toList) with
    | some t => .ok t
    | none => CoercionError.refuseFor .notDate raw .datetime
  | raw => raw.toDateTime

/-- **The order of the readers** does not change the coercion. -/
theorem toDateTimeBy_perm {order : List (List Char → Option DateTime)} (perm : order.Perm readers)
    (raw : Json) : raw.toDateTimeBy order = raw.toDateTime := by
  cases raw with
  | string s =>
    rcases h : ofText? (Text.trim s.toList) with _ | t
    · rw [toDateTimeBy, toDateTime, ofTextBy?_perm perm, h]
    · rw [toDateTimeBy, toDateTime, ofTextBy?_perm perm, h]
  | _ => rfl

/-- **The order of the forms does not matter.** A text, when it is trimmed, is read in at most one of the four
forms, so it is taken to the same date, or refused alike, in whatever order they are tried. The date that a
text in one of the lenient forms is taken to has no offset, and if it is a date alone, it is a midnight. -/
theorem toDateTime_anyOrder (s : String) :
    (readers.Pairwise fun r r' => r (Text.trim s.toList) = none ∨ r' (Text.trim s.toList) = none) ∧
    (∀ order, order.Perm readers → (Json.string s).toDateTimeBy order = (Json.string s).toDateTime) ∧
    (∀ reader ∈ [ofLetterSeparated?, ofSpaceSeparated?, ofDate?], ∀ t,
      reader (Text.trim s.toList) = some t → (Json.string s).toDateTime = .ok t ∧ t.offset = 0) ∧
    ∀ t, ofDate? (Text.trim s.toList) = some t →
      t.hour = 0 ∧ t.minute = 0 ∧ t.second = 0 ∧ t.nanosecond = 0 := by
  refine ⟨pairwise_readers _, fun order perm => toDateTimeBy_perm perm _,
    fun reader hreader t ht => ⟨?_, ?_⟩, fun t ht => ?_⟩
  · rw [toDateTime, ofText?_of_mem_readers (List.mem_cons_of_mem _ hreader) ht]
  · simp only [List.mem_cons, List.not_mem_nil, or_false] at hreader
    rcases hreader with rfl | rfl | rfl
    · exact (of_lenient? ht).2
    · exact (of_lenient? ht).2
    · rw [eq_midnight_of_ofDate? ht]
      rfl
  · rw [eq_midnight_of_ofDate? ht]
    exact ⟨rfl, rfl, rfl, rfl⟩

/-- A date and a time with nothing between them, read in the opposite order of the forms. -/
theorem toDateTime_anyOrder_reversed :
    let s := " 2024-03-0110:20:30"
    (Json.string s).toDateTimeBy readers.reverse = .ok ⟨⟨2024, 3, 1⟩, 10, 20, 30, 0, 0⟩ ∧
      ofSpaceSeparated? (Text.trim s.toList) = some ⟨⟨2024, 3, 1⟩, 10, 20, 30, 0, 0⟩ := by
  intro s
  obtain ⟨-, horder, hlenient, -⟩ := toDateTime_anyOrder s
  have hread : ofSpaceSeparated? (Text.trim s.toList) = some ⟨⟨2024, 3, 1⟩, 10, 20, 30, 0, 0⟩ := by decide
  have htaken := (hlenient ofSpaceSeparated? (by simp) _ hread).1
  rw [horder _ (List.reverse_perm readers), htaken]
  exact ⟨rfl, hread⟩

end Json

end ExtensionKit
