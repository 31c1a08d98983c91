import ExtensionKit.Proofs.Calendar.Rfc3339

/-!
# Dates that are written in no form

The text of a date whose year has not four digits begins with a sign, so it is not in the strict form. The
lenient forms take the year, but have no place for an offset, with which every text ends. So the text of a
date is read back exactly if the year has four digits (`DateTime.ofText?_text`,
`DateTime.ofText?_text_eq_none`).
-/

namespace ExtensionKit.DateTime

open Text

/-! ## Lenient numbers -/

/-- A number of limited length is read from as many digits, whatever follows. -/
theorem number?_some_append {ds : List Char} (digits : Digits ds) (rest : List Char) :
    number? (some ds.length) (ds ++ rest) = some (numeralValue ds, rest) := by
  have hrun : ((ds ++ rest).takeWhile isDigit).take ds.length = ds := by
    rw [List.takeWhile_append_of_pos digits.all]
    exact List.take_left
  simp only [number?, hrun, if_neg digits.nonempty, List.drop_left]

/-- A number of any length is read up to where something else begins. -/
theorem number?_none_append {ds : List Char} {c : Char} (digits : Digits ds) (hc : isDigit c = false)
    (rest : List Char) : number? none (ds ++ c :: rest) = some (numeralValue ds, c :: rest) := by
  have hrun : (ds ++ c :: rest).takeWhile isDigit = ds := by
    refine takeWhile_digits digits.all ?_
    rintro d cs heq
    rwa [← (List.cons.inj heq).1]
  simp only [number?, hrun, if_neg digits.nonempty, List.drop_left]

/-- No number begins with a character that is no digit. -/
theorem number?_eq_none {c : Char} (hc : isDigit c = false) (most : Option Nat) (rest : List Char) :
    number? most (c :: rest) = none := by
  have hrun : (c :: rest).takeWhile isDigit = [] := by
    rw [List.takeWhile_cons, if_neg (by rw [hc]; decide)]
  cases most <;> simp [number?, hrun]

theorem pair?_paddedDecimal {n : Nat} (h : n < 100) (rest : List Char) :
    pair? (paddedDecimal 2 n ++ rest) = some (n, rest) := by
  have digits := digits_paddedDecimal 2 n
  have hlength : (paddedDecimal 2 n).length = 2 := length_paddedDecimal (by decide) h
  obtain ⟨c, cs, hcons, hc⟩ := digits.exists_cons
  have htrim : trimStart (paddedDecimal 2 n ++ rest) = paddedDecimal 2 n ++ rest := by
    rw [hcons, List.cons_append, trimStart_cons (isBlank_of_isDigit hc)]
  have hread := number?_some_append digits rest
  rw [hlength, numeralValue_paddedDecimal] at hread
  rw [pair?, htrim, hread]

/-! ## Years -/

/-- The years that are written with a sign. -/
theorem yearText_signed {year : Int} (h : ¬(0 ≤ year ∧ year ≤ 9999)) :
    yearText year = (if year < 0 then '-' else '+') :: paddedDecimal 4 year.natAbs := by
  rw [yearText, if_neg h]

/-- A year with a sign is read up to the hyphen after it. -/
theorem year?_signed {year : Int} (h : ¬(0 ≤ year ∧ year ≤ 9999)) (rest : List Char) :
    year? (yearText year ++ '-' :: rest) = some (year, '-' :: rest) := by
  have hread : number? none (paddedDecimal 4 year.natAbs ++ '-' :: rest) =
      some (year.natAbs, '-' :: rest) := by
    rw [number?_none_append (digits_paddedDecimal 4 year.natAbs) (by decide),
      numeralValue_paddedDecimal]
  rw [yearText_signed h, List.cons_append]
  split
  · have hvalue : -(year.natAbs : Int) = year := by omega
    rw [year?, trimStart_cons (by decide)]
    simp only [hread, Option.map_some, hvalue]
  · have hvalue : (year.natAbs : Int) = year := by omega
    rw [year?, trimStart_cons (by decide)]
    simp only [hread, Option.map_some, hvalue]

/-- A year without a sign is read from its first four digits. -/
theorem year?_paddedDecimal {n : Nat} (h : n < 10000) (rest : List Char) :
    year? (paddedDecimal 4 n ++ rest) = some ((n : Int), rest) := by
  have digits := digits_paddedDecimal 4 n
  have hlength : (paddedDecimal 4 n).length = 4 := length_paddedDecimal (by decide) h
  obtain ⟨c, cs, hcons, hc⟩ := digits.exists_cons
  have hread := number?_some_append digits rest
  rw [hlength, numeralValue_paddedDecimal, hcons, List.cons_append] at hread
  rw [year?, hcons, List.cons_append, trimStart_cons (isBlank_of_isDigit hc)]
  split
  · next heq =>
    rw [(List.cons.inj heq).1] at hc
    cases hc
  · next heq =>
    rw [(List.cons.inj heq).1] at hc
    cases hc
  · rw [hread, Option.map_some]

/-! ## Dates and times -/

/-- A date is read up to the end of its day. -/
theorem lenientDate?_of_year? {cs rest : List Char} {year : Int} {month day : Nat} (hmonth : month < 100)
    (hday : day < 100)
    (hyear : year? cs =
      some (year, '-' :: (paddedDecimal 2 month ++ '-' :: (paddedDecimal 2 day ++ rest)))) :
    lenientDate? cs = some (⟨year, month, day⟩, rest) := by
  simp only [lenientDate?, hyear, Option.bind_eq_bind, Option.bind_some, expect?, if_true,
    pair?_paddedDecimal hmonth, pair?_paddedDecimal hday]

/-- Nothing may follow a time. -/
theorem lenient?_eq_none_of_tail {separator : List Char → Option (List Char)} {cs rest tail : List Char}
    {date : Date} {hour minute second : Nat} (hhour : hour < 100) (hminute : minute < 100)
    (hsecond : second < 100) (hdate : lenientDate? cs = some (date, rest))
    (htime : separator rest = some (paddedDecimal 2 hour ++ ':' :: (paddedDecimal 2 minute ++
      ':' :: (paddedDecimal 2 second ++ tail)))) (htail : tail ≠ []) :
    lenient? separator cs = none := by
  simp only [lenient?, hdate, htime, Option.bind_eq_bind, Option.bind_some, expect?, if_true,
    pair?_paddedDecimal hhour, pair?_paddedDecimal hminute, pair?_paddedDecimal hsecond, htail, false_and,
    if_false]

/-- A time with white space or nothing before it begins with a digit. -/
theorem ofSpaceSeparated?_eq_none {cs rest : List Char} {date : Date} {c : Char}
    (hdate : lenientDate? cs = some (date, c :: rest)) (hblank : isBlank c = false)
    (hdigit : isDigit c = false) : ofSpaceSeparated? cs = none := by
  simp only [ofSpaceSeparated?, lenient?, hdate, Option.bind_eq_bind, Option.bind_some,
    trimStart_cons hblank, pair?, number?_eq_none hdigit, Option.bind_none]

/-- Nothing may follow a date alone. -/
theorem ofDate?_eq_none {cs rest : List Char} {date : Date} (hdate : lenientDate? cs = some (date, rest))
    (hrest : rest ≠ []) : ofDate? cs = none := by
  simp only [ofDate?, hdate, Option.bind_eq_bind, Option.bind_some, hrest, false_and, if_false]

/-! ## Texts -/

/-- The text from its front. -/
theorem text_eq (t : DateTime) : t.text =
    yearText t.date.year ++ '-' :: (paddedDecimal 2 t.date.month ++
      '-' :: (paddedDecimal 2 t.date.day ++ 'T' :: (paddedDecimal 2 t.hour ++
        ':' :: (paddedDecimal 2 t.minute ++ ':' :: (paddedDecimal 2 t.second ++
          (fractionText t.nanosecond ++ offsetText t.offset)))))) := by
  simp [text]

/-- The lenient forms take the date of a text whose year has a sign. -/
theorem lenientDate?_text {t : DateTime} (year : ¬(0 ≤ t.date.year ∧ t.date.year ≤ 9999))
    (valid : t.date.isValid = true) : lenientDate? t.text =
      some (t.date, 'T' :: (paddedDecimal 2 t.hour ++ ':' :: (paddedDecimal 2 t.minute ++
        ':' :: (paddedDecimal 2 t.second ++ (fractionText t.nanosecond ++ offsetText t.offset))))) := by
  obtain ⟨-, hmonth, -, hday⟩ := Date.bounds_of_isValid valid
  rw [text_eq]
  exact lenientDate?_of_year? (show t.date.month < 100 by omega) (show t.date.day < 100 by omega)
    (year?_signed year _)

/-- A text ends in an offset. -/
theorem fractionText_append_offsetText_ne_nil (nanosecond : Nat) (offset : Int) :
    fractionText nanosecond ++ offsetText offset ≠ [] :=
  List.append_ne_nil_of_right_ne_nil _ (List.cons_ne_nil _ _)

/-- **The text of a date whose year has a sign is read in no form.** -/
theorem ofText?_text_eq_none {t : DateTime} (year : ¬(0 ≤ t.date.year ∧ t.date.year ≤ 9999))
    (valid : t.date.isValid = true) (time : t.hour < 24 ∧ t.minute < 60 ∧ t.second ≤ 60) :
    ofText? t.text = none := by
  have hend := fractionText_append_offsetText_ne_nil t.nanosecond t.offset
  have hdate := lenientDate?_text year valid
  have hstrict : ofRfc3339? t.text = none := by
    by_contra hsome
    obtain ⟨u, hu⟩ := Option.ne_none_iff_exists'.mp hsome
    obtain ⟨separator, -, fraction, zone, -, -, hwritten⟩ := (ofRfc3339?_eq_some_iff.mp hu).written
    obtain ⟨c, ds, hyear, hc⟩ := (digits_paddedDecimal 4 u.date.year.natAbs).exists_cons
    rw [strictText_eq, hyear, text_eq, yearText_signed year, List.cons_append, List.cons_append] at hwritten
    rw [← (List.cons.inj hwritten).1] at hc
    split at hc <;> cases hc
  have hletter : ofLetterSeparated? t.text = none :=
    lenient?_eq_none_of_tail (by omega) (by omega) (by omega) hdate (expect?_eq_some_iff.mpr rfl) hend
  have hspace : ofSpaceSeparated? t.text = none := ofSpaceSeparated?_eq_none hdate (by decide) (by decide)
  have halone : ofDate? t.text = none := ofDate?_eq_none hdate (List.cons_ne_nil _ _)
  rw [ofText?, hstrict, hletter, hspace, halone]
  rfl

/-- **The text of a date whose year has four digits is read as that date.** -/
theorem ofText?_text {t : DateTime} (year : 0 ≤ t.date.year ∧ t.date.year ≤ 9999)
    (valid : t.date.isValid = true) (time : t.hour < 24 ∧ t.minute < 60 ∧ t.second ≤ 60)
    (nanosecond : t.nanosecond < 1000000000) (offset : t.offset.natAbs < 1440) :
    ofText? t.text = some t := by
  have form := rfc3339_text year valid time nanosecond offset
  rw [ofText?, ofRfc3339?_eq_some_iff.mpr form, Option.some_or]

/-! ## Trimming -/

/-- A text has no white space to trim. -/
theorem trim_text {t : DateTime} (offset : t.offset.natAbs < 1440) : trim t.text = t.text := by
  obtain ⟨c, rest, hyear, hc⟩ : ∃ c rest, yearText t.date.year = c :: rest ∧ isBlank c = false := by
    rw [yearText]
    split
    · obtain ⟨c, rest, hcons, hc⟩ := (digits_paddedDecimal 4 t.date.year.natAbs).exists_cons
      exact ⟨c, rest, hcons, isBlank_of_isDigit hc⟩
    · exact ⟨_, _, rfl, by split <;> decide⟩
  obtain ⟨zone, d, hzone, hd⟩ := (offsetForm_offsetText offset).exists_concat
  have hfirst := text_eq t
  rw [hyear, List.cons_append] at hfirst
  obtain ⟨before, hlast⟩ : ∃ before, t.text = before ++ [d] := by
    rw [text, hzone, ← List.append_assoc]
    exact ⟨_, rfl⟩
  exact Text.trim_eq_self hfirst hlast hc hd

end ExtensionKit.DateTime
