import ExtensionKit.Calendar.Date
import Mathlib.Algebra.Ring.Nat

/-!
# Days of the calendar

The bounds that a day of the calendar keeps: twelve months, none of them longer than thirty-one days. And
counts of days: each of them has one day of the calendar, the one of this count
(`Date.isValid_ofDayNumber`, `Date.dayNumber_ofDayNumber`), in the year that has begun on it and is not over
(`Date.le_year_ofDayNumber_iff`).
-/

namespace ExtensionKit

theorem length_monthLengths (year : Int) : (monthLengths year).length = 12 := rfl

theorem le_of_mem_monthLengths {year : Int} {length : Nat} (h : length ∈ monthLengths year) :
    length ≤ 31 := by
  simp only [monthLengths, List.mem_cons, List.not_mem_nil, or_false] at h
  split at h <;> omega

namespace Date

/-- The months and days of a valid date. -/
theorem bounds_of_isValid {d : Date} (h : d.isValid = true) :
    1 ≤ d.month ∧ d.month ≤ 12 ∧ 1 ≤ d.day ∧ d.day ≤ 31 := by
  simp only [isValid, Bool.and_eq_true, decide_eq_true_iff] at h
  obtain ⟨⟨hmonth, hday⟩, hlength⟩ := h
  split at hlength
  · next length heq =>
    obtain ⟨hlt, rfl⟩ := List.getElem?_eq_some_iff.mp heq
    have hle := le_of_mem_monthLengths (List.getElem_mem hlt)
    rw [length_monthLengths] at hlt
    have hday' := of_decide_eq_true hlength
    exact ⟨hmonth, by omega, hday, Nat.le_trans hday' hle⟩
  · cases hlength

/-! ## Days of a year -/

/-- **The month and the day of the month** are the days after the start of the year, taken apart: the months
before it are over, and the day is one of its own. -/
theorem monthDay_eq {lengths : List Nat} {days : Nat} (month : Nat) (h : days < lengths.sum) :
    ∃ k day length, lengths[k]? = some length ∧ day < length ∧ (lengths.take k).sum + day = days ∧
      monthDay month days lengths = (month + k, day + 1) := by
  induction lengths generalizing month days with
  | nil => exact absurd h (Nat.not_lt_zero days)
  | cons first rest ih =>
    rw [List.sum_cons] at h
    by_cases hfirst : days < first
    · refine ⟨0, days, first, rfl, hfirst, Nat.zero_add days, ?_⟩
      cases rest with
      | nil => rfl
      | cons next rest => exact if_pos hfirst
    · have hrest : days - first < rest.sum := by omega
      obtain ⟨k, day, length, hlength, hday, hsum, hmonth⟩ := ih (month + 1) hrest
      refine ⟨k + 1, day, length, hlength, hday, ?_, ?_⟩
      · rw [List.take_succ_cons, List.sum_cons]
        omega
      · cases rest with
        | nil => cases hrest
        | cons next rest =>
          rw [monthDay, if_neg hfirst, hmonth, Nat.add_assoc, Nat.add_comm 1]

/-- The months of a year make up its days. -/
theorem sum_monthLengths (year : Int) :
    (monthLengths year).sum = if isLeapYear year then 366 else 365 := by
  rw [monthLengths]
  split <;> rfl

/-! ## Years -/

theorem daysBeforeYear_mono {a b : Int} (h : a ≤ b) : daysBeforeYear a ≤ daysBeforeYear b := by
  simp only [daysBeforeYear]
  omega

/-- Years follow one another. -/
theorem daysBeforeYear_add_one (year : Int) :
    daysBeforeYear (year + 1) = daysBeforeYear year + (monthLengths year).sum := by
  have hleap : isLeapYear year = true ↔ year % 4 = 0 ∧ (year % 100 ≠ 0 ∨ year % 400 = 0) := by
    simp [isLeapYear]
  rw [sum_monthLengths]
  simp only [daysBeforeYear]
  split
  · next h =>
    have := hleap.mp h
    omega
  · next h =>
    have := mt hleap.mpr h
    omega

/-- The days before a year, by periods of four hundred years, centuries, periods of four years, and
years. -/
theorem daysBeforeYear_periods (cycle : Int) {century quad single : Nat} (hcentury : century ≤ 3)
    (hquad : quad ≤ 24) (hsingle : single ≤ 3) :
    daysBeforeYear (400 * cycle + (100 * century + 4 * quad + single : Nat) + 1) =
      146097 * cycle + 36524 * century + 1461 * quad + 365 * single := by
  simp only [daysBeforeYear]
  omega

/-- The last year of four has a leap day, but for the last one of a century that is not the fourth. -/
theorem isLeapYear_periods (cycle : Int) {century quad single : Nat} (hcentury : century ≤ 3)
    (hquad : quad ≤ 24) (hsingle : single ≤ 3) :
    isLeapYear (400 * cycle + (100 * century + 4 * quad + single : Nat) + 1) = true ↔
      single = 3 ∧ (quad ≠ 24 ∨ century = 3) := by
  simp only [isLeapYear, Bool.and_eq_true, Bool.or_eq_true, beq_iff_eq, bne_iff_ne]
  omega

/-- A day of a period of four hundred years, by centuries, periods of four years, and years. Only a year
with a leap day has a day after three hundred and sixty-five others. -/
theorem exists_periods {inCycle : Nat} (hlt : inCycle < 146097) : ∃ century quad single days : Nat,
    min (inCycle / 36524) 3 = century ∧ (inCycle - century * 36524) / 1461 = quad ∧
      min ((inCycle - century * 36524) % 1461 / 365) 3 = single ∧
      (inCycle - century * 36524) % 1461 - single * 365 = days ∧
      (century ≤ 3 ∧ quad ≤ 24 ∧ single ≤ 3) ∧
      inCycle = 36524 * century + 1461 * quad + 365 * single + days ∧
      (days < 365 ∨ days = 365 ∧ single = 3 ∧ (quad ≠ 24 ∨ century = 3)) :=
  ⟨_, _, _, _, rfl, rfl, rfl, rfl, by omega, by omega, by omega⟩

/-- **The year of a day** and the days of that year before it. -/
theorem exists_year (n : Int) : ∃ (year : Int) (days : Nat), days < (monthLengths year).sum ∧
    daysBeforeYear year + days = n + daysBefore1970 ∧
    ofDayNumber n = ⟨year, (monthDay 1 days (monthLengths year)).1,
      (monthDay 1 days (monthLengths year)).2⟩ := by
  obtain ⟨cycle, inCycle, hcycle, hinCycle, htotal, hlt⟩ :
      ∃ (cycle : Int) (inCycle : Nat), (n + daysBefore1970) / 146097 = cycle ∧
        ((n + daysBefore1970) % 146097).toNat = inCycle ∧
        n + daysBefore1970 = 146097 * cycle + inCycle ∧ inCycle < 146097 := by
    generalize n + daysBefore1970 = days
    exact ⟨_, _, rfl, rfl, by omega, by omega⟩
  obtain ⟨century, quad, single, days, hcentury, hquad, hsingle, hdays, ⟨century_le, quad_le, single_le⟩,
    hsum, hlast⟩ := exists_periods hlt
  have hyear := daysBeforeYear_periods cycle century_le quad_le single_le
  have hleap := isLeapYear_periods cycle century_le quad_le single_le
  refine ⟨400 * cycle + (100 * century + 4 * quad + single : Nat) + 1, days, ?_, ?_, ?_⟩
  · rw [sum_monthLengths]
    split
    · rcases hlast with hlast | ⟨rfl, -⟩
      · exact Nat.lt_succ_of_lt hlast
      · decide
    · next hcommon => exact hlast.resolve_right fun hlast => hcommon (hleap.mpr hlast.2)
  · clear hcycle hinCycle hcentury hquad hsingle hdays
    omega
  · rw [ofDayNumber, hcycle, hinCycle]
    subst hcentury hquad hsingle hdays
    generalize monthDay 1 _ _ = date
    cases date
    rfl

/-! ## Counts of days -/

/-- **Every count of days has a day of the calendar.** -/
theorem isValid_ofDayNumber (n : Int) : (ofDayNumber n).isValid = true := by
  obtain ⟨year, days, hdays, -, hdate⟩ := exists_year n
  obtain ⟨k, day, length, hlength, hday, -, hmonth⟩ := monthDay_eq 1 hdays
  rw [hdate, hmonth]
  simp only [isValid, Nat.add_sub_cancel_left, hlength, Bool.and_eq_true, decide_eq_true_iff]
  omega

/-- **The day of a count has that count.** -/
theorem dayNumber_ofDayNumber (n : Int) : (ofDayNumber n).dayNumber = n := by
  obtain ⟨year, days, hdays, hyear, hdate⟩ := exists_year n
  obtain ⟨k, day, length, -, -, hsum, hmonth⟩ := monthDay_eq 1 hdays
  rw [hdate, hmonth]
  simp only [dayNumber, Nat.add_sub_cancel_left]
  rw [← List.sum]
  omega

/-- A year has begun on a day exactly if its first day is not later. -/
theorem le_year_ofDayNumber_iff {year n : Int} :
    year ≤ (ofDayNumber n).year ↔ daysBeforeYear year ≤ n + daysBefore1970 := by
  obtain ⟨y, days, hdays, hyear, hdate⟩ := exists_year n
  have hnext := daysBeforeYear_add_one y
  rw [hdate]
  change year ≤ y ↔ _
  constructor
  · intro h
    have := daysBeforeYear_mono h
    omega
  · intro h
    rcases Int.lt_or_le y year with hlater | hle
    · have := daysBeforeYear_mono (Int.add_one_le_of_lt hlater)
      omega
    · exact hle

end Date

end ExtensionKit
