import ExtensionKit.Calendar.DateTime
import ExtensionKit.Text.Blank

/-!
# Reading dates with times

Four readers, tried in order: the strict form of RFC 3339 with an offset, and three lenient forms
without one, which are taken as UTC: a date and a time with `T` between them, a date and a time with
any white space or none between them, and a date alone, which means its midnight.

The strict form has a fixed number of digits everywhere but in the fraction. In the lenient forms each
number may stand after white space; a year may have a sign and has at most four digits if it has
none, and the other numbers have one or two digits.
-/

namespace ExtensionKit.DateTime

/-- Takes a character off the front. -/
def expect? (c : Char) : List Char → Option (List Char)
  | d :: rest => if d = c then some rest else none
  | [] => none

/-- Checks that the numbers are a day of the calendar and a time of day. -/
def make? (date : Date) (hour minute second nanosecond : Nat) (offset : Int) : Option DateTime :=
  if date.isValid ∧ hour < 24 ∧ minute < 60 ∧ second ≤ 60 then
    some ⟨date, hour, minute, second, nanosecond, offset⟩
  else none

/-! ## The strict form -/

/-- Reads a number of exactly `n` digits. -/
def fixed? (n : Nat) (cs : List Char) : Option (Nat × List Char) :=
  let ds := cs.take n
  if ds.length = n ∧ ds.all Text.isDigit then some (Text.numeralValue ds, cs.drop n) else none

/-- Reads a fraction of a second after its point as nanoseconds; digits after the ninth are dropped. -/
def fraction? (cs : List Char) : Option (Nat × List Char) :=
  let ds := cs.takeWhile Text.isDigit
  if ds = [] then none
  else some (Text.numeralValue ((ds ++ List.replicate 9 '0').take 9), cs.dropWhile Text.isDigit)

/-- Reads a fraction of a second, which may be missing. -/
def subsecond? : List Char → Option (Nat × List Char)
  | '.' :: rest => fraction? rest
  | cs => some (0, cs)

/-- Reads hours and minutes of an offset. -/
def offsetMinutes? (cs : List Char) : Option (Nat × List Char) := do
  let (hours, cs) ← fixed? 2 cs
  let cs ← expect? ':' cs
  let (minutes, cs) ← fixed? 2 cs
  if hours < 24 ∧ minutes < 60 then some (hours * 60 + minutes, cs) else none

/-- Reads an offset: the letter for UTC, or a sign, hyphen or minus, with hours and minutes. -/
def offset? : List Char → Option (Int × List Char)
  | 'Z' :: rest => some (0, rest)
  | 'z' :: rest => some (0, rest)
  | '+' :: rest => (offsetMinutes? rest).map fun (n, rest) => ((n : Int), rest)
  | c :: rest =>
    if c = '-' ∨ c.toNat = 0x2212 then (offsetMinutes? rest).map fun (n, rest) => (-(n : Int), rest)
    else none
  | [] => none

/-- Reads the strict form. -/
def ofRfc3339? (cs : List Char) : Option DateTime := do
  let (year, cs) ← fixed? 4 cs
  let cs ← expect? '-' cs
  let (month, cs) ← fixed? 2 cs
  let cs ← expect? '-' cs
  let (day, cs) ← fixed? 2 cs
  let cs ← (expect? 'T' cs).or ((expect? 't' cs).or (expect? ' ' cs))
  let (hour, cs) ← fixed? 2 cs
  let cs ← expect? ':' cs
  let (minute, cs) ← fixed? 2 cs
  let cs ← expect? ':' cs
  let (second, cs) ← fixed? 2 cs
  let (nanosecond, cs) ← subsecond? cs
  let (offset, cs) ← offset? cs
  if cs = [] then make? ⟨year, month, day⟩ hour minute second nanosecond offset else none

/-! ## The lenient forms -/

/-- Reads a number of one to `most` digits, or of any number of digits if there is no limit. -/
def number? (most : Option Nat) (cs : List Char) : Option (Nat × List Char) :=
  let run := cs.takeWhile Text.isDigit
  let ds := match most with
    | some n => run.take n
    | none => run
  if ds = [] then none else some (Text.numeralValue ds, cs.drop ds.length)

/-- Reads a year after optional white space. -/
def year? (cs : List Char) : Option (Int × List Char) :=
  match Text.trimStart cs with
  | '-' :: rest => (number? none rest).map fun (n, rest) => (-(n : Int), rest)
  | '+' :: rest => (number? none rest).map fun (n, rest) => ((n : Int), rest)
  | cs => (number? (some 4) cs).map fun (n, rest) => ((n : Int), rest)

/-- Reads a number of one or two digits after optional white space. -/
def pair? (cs : List Char) : Option (Nat × List Char) := number? (some 2) (Text.trimStart cs)

/-- Reads a date in the lenient form. -/
def lenientDate? (cs : List Char) : Option (Date × List Char) := do
  let (year, cs) ← year? cs
  let cs ← expect? '-' cs
  let (month, cs) ← pair? cs
  let cs ← expect? '-' cs
  let (day, cs) ← pair? cs
  some (⟨year, month, day⟩, cs)

/-- The years that the lenient forms accept. -/
def yearInRange (year : Int) : Bool := -262143 ≤ year && year ≤ 262142

/-- Reads a date in the lenient form and what a separator leaves as the time. -/
def lenient? (separator : List Char → Option (List Char)) (cs : List Char) : Option DateTime := do
  let (date, cs) ← lenientDate? cs
  let cs ← separator cs
  let (hour, cs) ← pair? cs
  let cs ← expect? ':' cs
  let (minute, cs) ← pair? cs
  let cs ← expect? ':' cs
  let (second, cs) ← pair? cs
  if cs = [] ∧ yearInRange date.year then make? date hour minute second 0 0 else none

/-- Reads a date and a time with `T` between them. -/
def ofLetterSeparated? : List Char → Option DateTime := lenient? (expect? 'T')

/-- Reads a date and a time with white space or nothing between them. -/
def ofSpaceSeparated? : List Char → Option DateTime := lenient? fun cs => some (Text.trimStart cs)

/-- Reads a date alone. -/
def ofDate? (cs : List Char) : Option DateTime := do
  let (date, cs) ← lenientDate? cs
  if cs = [] ∧ yearInRange date.year then make? date 0 0 0 0 0 else none

/-- Reads a date with a time in the first of the four forms that fits. -/
def ofText? (cs : List Char) : Option DateTime :=
  (ofRfc3339? cs).or ((ofLetterSeparated? cs).or ((ofSpaceSeparated? cs).or (ofDate? cs)))

/-- The least second that has a date. -/
def leastUnixSecond : Int := -8334601228800

/-- The greatest second that has a date. -/
def greatestUnixSecond : Int := 8210266876799

/-- The whole second some seconds after the epoch, if its year is in range. -/
def ofUnixSeconds? (n : Int) : Option DateTime :=
  if leastUnixSecond ≤ n ∧ n ≤ greatestUnixSecond then some (ofUnixSeconds n) else none

end ExtensionKit.DateTime
