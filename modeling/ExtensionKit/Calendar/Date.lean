/-!
# Calendar dates

Days of the proleptic Gregorian calendar, in which the year zero comes before the year one. A date is
three numbers; it is a day of the calendar if `Date.isValid` says so. `Date.dayNumber` counts days
from the first of January 1970, and `Date.ofDayNumber` finds the date of a count.
-/

namespace ExtensionKit

/-- Whether a year has a leap day. -/
def isLeapYear (year : Int) : Bool :=
  year % 4 == 0 && (year % 100 != 0 || year % 400 == 0)

/-- The number of days of each month of a year. -/
def monthLengths (year : Int) : List Nat :=
  [31, if isLeapYear year then 29 else 28, 31, 30, 31, 30, 31, 31, 30, 31, 30, 31]

/-- A year, a month and a day of the month, the last two from one. -/
structure Date where
  /-- the year; zero is the year before the first -/
  year : Int
  /-- the month, from one -/
  month : Nat
  /-- the day of the month, from one -/
  day : Nat
deriving DecidableEq, Repr

namespace Date

/-- Whether the calendar has the date. -/
def isValid (d : Date) : Bool :=
  1 ≤ d.month && 1 ≤ d.day &&
    (match (monthLengths d.year)[d.month - 1]? with
      | some length => decide (d.day ≤ length)
      | none => false)

/-- The number of days between the first days of the year one and of another year. -/
def daysBeforeYear (year : Int) : Int :=
  let y := year - 1
  365 * y + y / 4 - y / 100 + y / 400

/-- The number of days from the first day of the year one to the first of January 1970. -/
def daysBefore1970 : Int := 719162

/-- The number of days from the first of January 1970 to the date. -/
def dayNumber (d : Date) : Int :=
  let daysBeforeMonth : Nat := ((monthLengths d.year).take (d.month - 1)).foldr (· + ·) 0
  daysBeforeYear d.year + daysBeforeMonth + (d.day - 1 : Int) - daysBefore1970

/-- The month and the day of the month that lie some days after the first day of a month, given the
lengths of that month and the later ones. -/
def monthDay (month : Nat) (days : Nat) : List Nat → Nat × Nat
  | [] => (month, days + 1)
  | [_] => (month, days + 1)
  | length :: next :: rest =>
    if days < length then (month, days + 1)
    else monthDay (month + 1) (days - length) (next :: rest)

/-- The date that lies some days after the first of January 1970. The days are divided into periods
of four hundred years, centuries, periods of four years, and years; the last century and the last
year of a period may be a day longer than the others. -/
def ofDayNumber (n : Int) : Date :=
  let days := n + daysBefore1970
  let inCycle := (days % 146097).toNat
  let century := min (inCycle / 36524) 3
  let inCentury := inCycle - century * 36524
  let quad := inCentury / 1461
  let inQuad := inCentury % 1461
  let single := min (inQuad / 365) 3
  let year := 400 * (days / 146097) + (100 * century + 4 * quad + single : Nat) + 1
  let (month, day) := monthDay 1 (inQuad - single * 365) (monthLengths year)
  ⟨year, month, day⟩

end Date

end ExtensionKit
