import ExtensionKit.Calendar.Date
import ExtensionKit.Text.Numeral

/-!
# Dates with times

A date and a time of day as clocks at some offset from UTC show them. The second sixty is a leap
second. `DateTime.text` writes the form of RFC 3339, with a numeric offset and the shortest exact
fraction of none, three, six or nine digits.
-/

namespace ExtensionKit

/-- A date, a time of day, and the offset of the clocks that show them. -/
structure DateTime where
  /-- the date -/
  date : Date
  /-- the hour, below 24 -/
  hour : Nat
  /-- the minute, below 60 -/
  minute : Nat
  /-- the second, below 60, or 60 in a leap second -/
  second : Nat
  /-- the nanosecond within the second -/
  nanosecond : Nat
  /-- how many minutes the clocks are ahead of UTC -/
  offset : Int
deriving DecidableEq, Repr

namespace DateTime

/-- Midnight UTC at the start of a date. -/
def midnight (date : Date) : DateTime := ⟨date, 0, 0, 0, 0, 0⟩

/-- The start of the first of January 1970. -/
def epoch : DateTime := midnight ⟨1970, 1, 1⟩

/-- The seconds since the epoch; a leap second counts as the second before it. -/
def unixSeconds (t : DateTime) : Int :=
  t.date.dayNumber * 86400 + ((t.hour * 60 + t.minute) * 60 + min t.second 59 : Nat) - t.offset * 60

/-- The whole second some seconds after the epoch, in UTC. -/
def ofUnixSeconds (n : Int) : DateTime :=
  let inDay := (n % 86400).toNat
  ⟨.ofDayNumber (n / 86400), inDay / 3600, inDay / 60 % 60, inDay % 60, 0, 0⟩

/-- A year: four digits, and a sign if these do not suffice or it is negative. -/
def yearText (year : Int) : List Char :=
  let digits := Text.paddedDecimal 4 year.natAbs
  if 0 ≤ year ∧ year ≤ 9999 then digits else (if year < 0 then '-' else '+') :: digits

/-- The fraction of a second, with its point. -/
def fractionText (nanosecond : Nat) : List Char :=
  if nanosecond = 0 then []
  else if nanosecond % 1000000 = 0 then '.' :: Text.paddedDecimal 3 (nanosecond / 1000000)
  else if nanosecond % 1000 = 0 then '.' :: Text.paddedDecimal 6 (nanosecond / 1000)
  else '.' :: Text.paddedDecimal 9 nanosecond

/-- An offset, with its sign; zero is ahead. -/
def offsetText (offset : Int) : List Char :=
  (if offset < 0 then '-' else '+') :: Text.paddedDecimal 2 (offset.natAbs / 60) ++
    ':' :: Text.paddedDecimal 2 (offset.natAbs % 60)

/-- The text of a date with a time. -/
def text (t : DateTime) : List Char :=
  yearText t.date.year ++ '-' :: Text.paddedDecimal 2 t.date.month ++
    '-' :: Text.paddedDecimal 2 t.date.day ++
    'T' :: Text.paddedDecimal 2 t.hour ++ ':' :: Text.paddedDecimal 2 t.minute ++
    ':' :: Text.paddedDecimal 2 t.second ++ fractionText t.nanosecond ++ offsetText t.offset

end DateTime

end ExtensionKit
