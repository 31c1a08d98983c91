import ExtensionKit.Calendar.Reading
import ExtensionKit.Proofs.Calendar.Date
import ExtensionKit.Proofs.Text.Blank
import ExtensionKit.Proofs.Text.Numeral
import Mathlib.Data.List.TakeWhile

/-!
# The strict form of dates with times

The form of RFC 3339 as a relation between texts and what they say (`DateTime.Rfc3339`): numbers of a fixed
width, a fraction of a second of any length of which nine digits count, and an offset. The strict reader
takes exactly the texts of this form (`DateTime.ofRfc3339?_eq_some_iff`). What it takes is written back in
the same form (`DateTime.Rfc3339.text`), so the text of a date is read as that date.
-/

namespace ExtensionKit.DateTime

open Text

/-! ## Numbers and marks -/

/-- A character is expected exactly at the start of the text. -/
theorem expect?_eq_some_iff {c : Char} {cs rest : List Char} :
    expect? c cs = some rest ↔ cs = c :: rest := by
  cases cs with
  | nil => simp [expect?]
  | cons d cs =>
    rw [expect?]
    split
    · next h => simp [h]
    · next h => simp [h]

/-- **A number of a fixed width** is read from its padded decimal and from nothing else. -/
theorem fixed?_eq_some_iff {width n : Nat} (hwidth : 0 < width) {cs rest : List Char} :
    fixed? width cs = some (n, rest) ↔ n < 10 ^ width ∧ cs = paddedDecimal width n ++ rest := by
  rw [fixed?]
  constructor
  · intro h
    split at h
    · next hread =>
      obtain ⟨rfl, rfl⟩ := Prod.mk.inj (Option.some.inj h)
      have digits : Digits (cs.take width) := by
        refine ⟨fun hnil => ?_, List.all_eq_true.mp hread.2⟩
        rw [hnil] at hread
        exact Nat.ne_of_lt hwidth hread.1
      have hlt := numeralValue_lt digits.all
      have hpadded := paddedDecimal_numeralValue digits
      rw [hread.1] at hlt hpadded
      exact ⟨hlt, by rw [hpadded, List.take_append_drop]⟩
    · cases h
  · rintro ⟨hn, rfl⟩
    have hlength := length_paddedDecimal hwidth hn
    have hdigits : (paddedDecimal width n).all isDigit = true :=
      List.all_eq_true.mpr fun c hc => isDigit_of_mem_paddedDecimal hc
    rw [List.take_left' hlength, List.drop_left' hlength, if_pos ⟨hlength, hdigits⟩,
      numeralValue_paddedDecimal]

/-! ## Fractions -/

/-- How the fraction of a second is written: not at all, or with a point and digits. Nine digits count;
missing ones are zeros. -/
inductive FractionForm : List Char → Nat → Prop
  | absent : FractionForm [] 0
  | digits {ds : List Char} (digits : Digits ds) :
    FractionForm ('.' :: ds) (numeralValue ((ds ++ List.replicate 9 '0').take 9))

/-- A fraction is less than a second. -/
theorem FractionForm.lt {cs : List Char} {n : Nat} (h : FractionForm cs n) : n < 1000000000 := by
  cases h with
  | absent => decide
  | @digits ds digits =>
    have hall : ∀ c ∈ (ds ++ List.replicate 9 '0').take 9, isDigit c = true := by
      intro c hc
      rcases List.mem_append.mp (List.mem_of_mem_take hc) with hc | hc
      · exact digits.all c hc
      · rw [List.eq_of_mem_replicate hc]
        rfl
    have hlt := numeralValue_lt hall
    rwa [List.length_take, List.length_append, List.length_replicate, Nat.min_eq_left (by omega)] at hlt

/-- What a fraction of a second leaves is what follows its digits. -/
theorem exists_form_of_subsecond? {cs rest : List Char} {n : Nat} (h : subsecond? cs = some (n, rest)) :
    ∃ fraction, FractionForm fraction n ∧ cs = fraction ++ rest := by
  rw [subsecond?.eq_def] at h
  split at h
  · next ds =>
    rw [fraction?] at h
    split at h
    · cases h
    · next hne =>
      obtain ⟨rfl, rfl⟩ := Prod.mk.inj (Option.some.inj h)
      have digits : Digits (ds.takeWhile isDigit) := ⟨hne, fun c hc => List.mem_takeWhile_imp hc⟩
      refine ⟨_, .digits digits, ?_⟩
      rw [List.cons_append, List.takeWhile_append_dropWhile]
  · obtain ⟨rfl, rfl⟩ := Prod.mk.inj (Option.some.inj h)
    exact ⟨[], .absent, rfl⟩

/-- A fraction of a second is read up to a character that goes on none. -/
theorem subsecond?_append {fraction cs : List Char} {n : Nat} {c : Char} (form : FractionForm fraction n)
    (hdigit : isDigit c = false) (hpoint : c ≠ '.') :
    subsecond? (fraction ++ c :: cs) = some (n, c :: cs) := by
  cases form with
  | absent =>
    rw [List.nil_append, subsecond?.eq_2]
    intro rest heq
    exact hpoint (List.cons.inj heq).1
  | @digits ds digits =>
    have hstop : ∀ d ds, c :: cs = d :: ds → isDigit d = false := by
      rintro d ds heq
      rwa [← (List.cons.inj heq).1]
    rw [List.cons_append, subsecond?, fraction?, takeWhile_digits digits.all hstop,
      dropWhile_digits digits.all hstop]
    exact if_neg digits.nonempty

/-! ## Offsets -/

/-- How an offset is written: as one of the letters for UTC, or with a sign, hours and minutes. The minus
sign of typography stands for a hyphen. -/
inductive OffsetForm : List Char → Int → Prop
  | utc {c : Char} (letter : c = 'Z' ∨ c = 'z') : OffsetForm [c] 0
  | ahead {hours minutes : Nat} (hhours : hours < 24) (hminutes : minutes < 60) :
    OffsetForm ('+' :: paddedDecimal 2 hours ++ ':' :: paddedDecimal 2 minutes)
      (hours * 60 + minutes : Nat)
  | behind {c : Char} {hours minutes : Nat} (sign : c = '-' ∨ c.toNat = 0x2212) (hhours : hours < 24)
    (hminutes : minutes < 60) :
    OffsetForm (c :: paddedDecimal 2 hours ++ ':' :: paddedDecimal 2 minutes)
      (-(hours * 60 + minutes : Nat))

/-- An offset is less than a day. -/
theorem OffsetForm.natAbs_lt {cs : List Char} {o : Int} (h : OffsetForm cs o) : o.natAbs < 1440 := by
  cases h with
  | utc letter => decide
  | ahead hhours hminutes => omega
  | behind sign hhours hminutes => omega

/-- Which texts begin with the hours and minutes of an offset. -/
theorem offsetMinutes?_eq_some_iff {cs rest : List Char} {n : Nat} :
    offsetMinutes? cs = some (n, rest) ↔ ∃ hours minutes, hours < 24 ∧ minutes < 60 ∧
      n = hours * 60 + minutes ∧
      cs = paddedDecimal 2 hours ++ ':' :: paddedDecimal 2 minutes ++ rest := by
  simp only [offsetMinutes?, Option.bind_eq_bind, Option.bind_eq_some_iff, Prod.exists,
    fixed?_eq_some_iff (by decide : 0 < 2), expect?_eq_some_iff]
  constructor
  · rintro ⟨hours, _, ⟨-, rfl⟩, _, rfl, minutes, _, ⟨-, rfl⟩, h⟩
    split at h
    · next hbounds =>
      obtain ⟨rfl, rfl⟩ := Prod.mk.inj (Option.some.inj h)
      exact ⟨hours, minutes, hbounds.1, hbounds.2, rfl, by simp⟩
    · cases h
  · rintro ⟨hours, minutes, hhours, hminutes, rfl, rfl⟩
    refine ⟨hours, _, ⟨by omega, by simp⟩, _, rfl, minutes, rest, ⟨by omega, rfl⟩, ?_⟩
    rw [if_pos ⟨hhours, hminutes⟩]

theorem offsetMinutes?_append {hours minutes : Nat} (hhours : hours < 24) (hminutes : minutes < 60)
    (rest : List Char) :
    offsetMinutes? (paddedDecimal 2 hours ++ ':' :: paddedDecimal 2 minutes ++ rest) =
      some (hours * 60 + minutes, rest) :=
  offsetMinutes?_eq_some_iff.mpr ⟨hours, minutes, hhours, hminutes, rfl, rfl⟩

/-- The sign of an offset behind UTC. -/
theorem eq_of_sign {c : Char} (sign : c = '-' ∨ c.toNat = 0x2212) : c = '-' ∨ c = Char.ofNat 0x2212 := by
  rcases sign with rfl | h
  · exact .inl rfl
  · exact .inr (by rw [← h, Char.ofNat_toNat])

/-- An offset begins with a character that goes on no fraction. -/
theorem OffsetForm.exists_cons {cs : List Char} {o : Int} (h : OffsetForm cs o) :
    ∃ c rest, cs = c :: rest ∧ isDigit c = false ∧ c ≠ '.' := by
  cases h with
  | @utc c letter =>
    refine ⟨c, [], rfl, ?_⟩
    rcases letter with rfl | rfl <;> decide
  | ahead => exact ⟨'+', _, rfl, by decide⟩
  | @behind c _ _ sign =>
    refine ⟨c, _, rfl, ?_⟩
    rcases eq_of_sign sign with rfl | rfl <;> decide

/-- A minus sign of either kind makes an offset negative. -/
theorem offset?_behind {c : Char} (sign : c = '-' ∨ c.toNat = 0x2212) (cs : List Char) :
    offset? (c :: cs) = (offsetMinutes? cs).map fun (n, rest) => (-(n : Int), rest) := by
  rcases eq_of_sign sign with rfl | rfl <;> rfl

/-- **An offset** is read from its forms and from nothing else. -/
theorem offset?_eq_some_iff {cs rest : List Char} {o : Int} :
    offset? cs = some (o, rest) ↔ ∃ zone, OffsetForm zone o ∧ cs = zone ++ rest := by
  constructor
  · intro h
    rw [offset?.eq_def] at h
    split at h
    · obtain ⟨rfl, rfl⟩ := Prod.mk.inj (Option.some.inj h)
      exact ⟨['Z'], .utc (.inl rfl), rfl⟩
    · obtain ⟨rfl, rfl⟩ := Prod.mk.inj (Option.some.inj h)
      exact ⟨['z'], .utc (.inr rfl), rfl⟩
    · obtain ⟨⟨n, rest'⟩, hread, heq⟩ := Option.map_eq_some_iff.mp h
      obtain ⟨rfl, rfl⟩ := Prod.mk.inj heq
      obtain ⟨hours, minutes, hhours, hminutes, rfl, rfl⟩ := offsetMinutes?_eq_some_iff.mp hread
      exact ⟨_, .ahead hhours hminutes, rfl⟩
    · split at h
      · next sign =>
        obtain ⟨⟨n, rest'⟩, hread, heq⟩ := Option.map_eq_some_iff.mp h
        obtain ⟨rfl, rfl⟩ := Prod.mk.inj heq
        obtain ⟨hours, minutes, hhours, hminutes, rfl, rfl⟩ := offsetMinutes?_eq_some_iff.mp hread
        exact ⟨_, .behind sign hhours hminutes, rfl⟩
      · cases h
    · cases h
  · rintro ⟨zone, form, rfl⟩
    cases form with
    | utc letter => rcases letter with rfl | rfl <;> rfl
    | ahead hhours hminutes =>
      rw [List.cons_append, List.cons_append, offset?, offsetMinutes?_append hhours hminutes]
      rfl
    | behind sign hhours hminutes =>
      rw [List.cons_append, List.cons_append, offset?_behind sign, offsetMinutes?_append hhours hminutes]
      rfl

/-! ## The whole form -/

/-- The text of a date with a time, with a given separator, fraction and offset. -/
def strictText (t : DateTime) (separator : Char) (fraction zone : List Char) : List Char :=
  paddedDecimal 4 t.date.year.natAbs ++ '-' :: paddedDecimal 2 t.date.month ++
    '-' :: paddedDecimal 2 t.date.day ++ separator :: paddedDecimal 2 t.hour ++
    ':' :: paddedDecimal 2 t.minute ++ ':' :: paddedDecimal 2 t.second ++ fraction ++ zone

/-- The text from its front. -/
theorem strictText_eq (t : DateTime) (separator : Char) (fraction zone : List Char) :
    t.strictText separator fraction zone =
      paddedDecimal 4 t.date.year.natAbs ++ '-' :: (paddedDecimal 2 t.date.month ++
        '-' :: (paddedDecimal 2 t.date.day ++ separator :: (paddedDecimal 2 t.hour ++
          ':' :: (paddedDecimal 2 t.minute ++ ':' :: (paddedDecimal 2 t.second ++
            (fraction ++ zone)))))) := by
  simp [strictText]

/-- A text in the form of RFC 3339, and the date with a time that it says. -/
structure Rfc3339 (cs : List Char) (t : DateTime) : Prop where
  /-- the year has four digits and no sign -/
  year : 0 ≤ t.date.year ∧ t.date.year ≤ 9999
  /-- the calendar has the date -/
  valid : t.date.isValid = true
  /-- the time is a time of day, or a leap second -/
  time : t.hour < 24 ∧ t.minute < 60 ∧ t.second ≤ 60
  /-- the text has the parts of the form, one after another -/
  written : ∃ separator ∈ ['T', 't', ' '], ∃ fraction zone, FractionForm fraction t.nanosecond ∧
    OffsetForm zone t.offset ∧ cs = t.strictText separator fraction zone

theorem separator?_eq_some_iff {cs rest : List Char} :
    (expect? 'T' cs).or ((expect? 't' cs).or (expect? ' ' cs)) = some rest ↔
      ∃ separator ∈ ['T', 't', ' '], cs = separator :: rest := by
  cases cs with
  | nil => simp [expect?]
  | cons c cs =>
    by_cases hupper : c = 'T'
    · simp [expect?, hupper]
    · by_cases hlower : c = 't'
      · simp [expect?, hlower]
      · by_cases hspace : c = ' '
        · simp [expect?, hspace]
        · simp [expect?, hupper, hlower, hspace]

/-- Which parts make a date with a time. -/
theorem make?_eq_some_iff {date : Date} {hour minute second nanosecond : Nat} {offset : Int}
    {t : DateTime} :
    make? date hour minute second nanosecond offset = some t ↔
      (date.isValid = true ∧ hour < 24 ∧ minute < 60 ∧ second ≤ 60) ∧
        t = ⟨date, hour, minute, second, nanosecond, offset⟩ := by
  rw [make?]
  split
  · next h => simp [h, eq_comm]
  · next h => simp [h]

/-- **The strict form** is read from its texts and from nothing else. -/
theorem ofRfc3339?_eq_some_iff {cs : List Char} {t : DateTime} :
    ofRfc3339? cs = some t ↔ Rfc3339 cs t := by
  simp only [ofRfc3339?, Option.bind_eq_bind, Option.bind_eq_some_iff, Prod.exists,
    fixed?_eq_some_iff (by decide : 0 < 2), fixed?_eq_some_iff (by decide : 0 < 4),
    expect?_eq_some_iff, separator?_eq_some_iff]
  constructor
  · rintro ⟨year, _, ⟨hyear, rfl⟩, _, rfl, month, _, ⟨hmonth, rfl⟩, _, rfl, day, _, ⟨hday, rfl⟩, _,
      ⟨separator, hseparator, rfl⟩, hour, _, ⟨-, rfl⟩, _, rfl, minute, _, ⟨-, rfl⟩, _, rfl,
      second, rest, ⟨-, rfl⟩, nanosecond, rest', hfraction, offset, rest'', hoffset, h⟩
    obtain ⟨fraction, hform, rfl⟩ := exists_form_of_subsecond? hfraction
    obtain ⟨zone, hzone, rfl⟩ := offset?_eq_some_iff.mp hoffset
    split at h
    · next hnil =>
      obtain ⟨⟨hvalid, htime⟩, rfl⟩ := make?_eq_some_iff.mp h
      refine ⟨⟨Int.natCast_nonneg year, by simp; omega⟩, hvalid, htime, separator, hseparator, fraction,
        zone, hform, hzone, ?_⟩
      simp [strictText, hnil]
    · cases h
  · rintro ⟨⟨hleast, hyear⟩, hvalid, ⟨hhour, hminute, hsecond⟩, separator, hseparator, fraction, zone,
      hform, hzone, rfl⟩
    obtain ⟨-, hmonth, -, hday⟩ := Date.bounds_of_isValid hvalid
    obtain ⟨c, after, hcons, hdigit, hpoint⟩ := hzone.exists_cons
    rw [strictText_eq]
    refine ⟨t.date.year.natAbs, _, ⟨by omega, rfl⟩, _, rfl, t.date.month, _, ⟨by omega, rfl⟩, _, rfl,
      t.date.day, _, ⟨by omega, rfl⟩, _, ⟨separator, hseparator, rfl⟩, t.hour, _, ⟨by omega, rfl⟩, _, rfl,
      t.minute, _, ⟨by omega, rfl⟩, _, rfl, t.second, _, ⟨by omega, rfl⟩, t.nanosecond, zone, ?_,
      t.offset, [], offset?_eq_some_iff.mpr ⟨zone, hzone, (List.append_nil zone).symm⟩, ?_⟩
    · -- the fraction ends where the offset begins
      rw [hcons]
      exact subsecond?_append hform hdigit hpoint
    · rw [if_pos rfl, make?_eq_some_iff, Int.natAbs_of_nonneg hleast]
      exact ⟨⟨hvalid, hhour, hminute, hsecond⟩, rfl⟩

/-! ## The text of a date -/

/-- Some of the nine digits of a fraction, with zeros for the others. -/
theorem fractionForm_paddedDecimal {width m : Nat} (hpos : 0 < width) (hle : width ≤ 9)
    (h : m < 10 ^ width) : FractionForm ('.' :: paddedDecimal width m) (m * 10 ^ (9 - width)) := by
  have hlength := length_paddedDecimal hpos h
  have form := FractionForm.digits (digits_paddedDecimal width m)
  rwa [List.take_append, hlength, List.take_of_length_le (by omega), List.take_replicate,
    Nat.min_eq_left (by omega), numeralValue_append_zeros, numeralValue_paddedDecimal] at form

theorem fractionForm_fractionText {n : Nat} (h : n < 1000000000) :
    FractionForm (fractionText n) n := by
  rw [fractionText]
  split
  · next hzero =>
    rw [hzero]
    exact .absent
  · split
    · next hmilli =>
      have form := @fractionForm_paddedDecimal 3 (n / 1000000) (by decide) (by decide) (by omega)
      rwa [show n / 1000000 * 10 ^ (9 - 3) = n by omega] at form
    · split
      · next hmicro =>
        have form := @fractionForm_paddedDecimal 6 (n / 1000) (by decide) (by decide) (by omega)
        rwa [show n / 1000 * 10 ^ (9 - 6) = n by omega] at form
      · have form := @fractionForm_paddedDecimal 9 n (by decide) (by decide) h
        rwa [Nat.sub_self, Nat.pow_zero, Nat.mul_one] at form

theorem offsetForm_offsetText {o : Int} (h : o.natAbs < 1440) : OffsetForm (offsetText o) o := by
  have hhours : o.natAbs / 60 < 24 := by omega
  have hminutes : o.natAbs % 60 < 60 := by omega
  rw [offsetText]
  split
  · have form := OffsetForm.behind (.inl rfl) hhours hminutes
    rwa [show -((o.natAbs / 60 * 60 + o.natAbs % 60 : Nat) : Int) = o by omega] at form
  · have form := OffsetForm.ahead hhours hminutes
    rwa [show ((o.natAbs / 60 * 60 + o.natAbs % 60 : Nat) : Int) = o by omega] at form

/-- **The text of a date that can be written in the form** is in the form, and says the date. -/
theorem rfc3339_text {t : DateTime} (year : 0 ≤ t.date.year ∧ t.date.year ≤ 9999)
    (valid : t.date.isValid = true) (time : t.hour < 24 ∧ t.minute < 60 ∧ t.second ≤ 60)
    (nanosecond : t.nanosecond < 1000000000) (offset : t.offset.natAbs < 1440) : Rfc3339 t.text t := by
  refine ⟨year, valid, time, 'T', by simp, _, _, fractionForm_fractionText nanosecond,
    offsetForm_offsetText offset, ?_⟩
  rw [DateTime.text, yearText, if_pos year, strictText]

theorem Rfc3339.text {cs : List Char} {t : DateTime} (h : Rfc3339 cs t) : Rfc3339 t.text t := by
  obtain ⟨-, -, fraction, zone, hfraction, hzone, -⟩ := h.written
  exact rfc3339_text h.year h.valid h.time hfraction.lt hzone.natAbs_lt

/-! ## Trimming -/

/-- An offset ends in a letter or a digit. -/
theorem OffsetForm.exists_concat {cs : List Char} {o : Int} (h : OffsetForm cs o) :
    ∃ before c, cs = before ++ [c] ∧ isBlank c = false := by
  cases h with
  | @utc c letter =>
    refine ⟨[], c, rfl, ?_⟩
    rcases letter with rfl | rfl <;> rfl
  | @ahead hours minutes =>
    obtain ⟨ds, d, hds, hd⟩ := (digits_paddedDecimal 2 minutes).exists_concat
    exact ⟨'+' :: paddedDecimal 2 hours ++ ':' :: ds, d, by simp [hds], isBlank_of_isDigit hd⟩
  | @behind c hours minutes =>
    obtain ⟨ds, d, hds, hd⟩ := (digits_paddedDecimal 2 minutes).exists_concat
    exact ⟨c :: paddedDecimal 2 hours ++ ':' :: ds, d, by simp [hds], isBlank_of_isDigit hd⟩

/-- A text in the form has no white space to trim. -/
theorem Rfc3339.trim_eq_self {cs : List Char} {t : DateTime} (h : Rfc3339 cs t) : trim cs = cs := by
  obtain ⟨separator, -, fraction, zone, -, hzone, rfl⟩ := h.written
  obtain ⟨c, ds, hyear, hc⟩ := (digits_paddedDecimal 4 t.date.year.natAbs).exists_cons
  obtain ⟨before, d, rfl, hd⟩ := hzone.exists_concat
  have hfirst := strictText_eq t separator fraction (before ++ [d])
  rw [hyear, List.cons_append] at hfirst
  have hlast : t.strictText separator fraction (before ++ [d]) =
      t.strictText separator fraction before ++ [d] := (List.append_assoc ..).symm
  exact Text.trim_eq_self hfirst hlast (isBlank_of_isDigit hc) hd

end ExtensionKit.DateTime
