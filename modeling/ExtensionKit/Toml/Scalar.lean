import ExtensionKit.Binary64.Reading
import ExtensionKit.Calendar.Date
import ExtensionKit.Json.Basic
import ExtensionKit.Toml.Blank

/-!
# Numbers, dates and times of TOML

A number may have single underscores between its digits. It is an integer of 64 bits in decimal,
hexadecimal, octal or binary, or a binary number with a point or an exponent, or `inf` or `nan`.
Integers in decimal, and the integer part of a binary number, have no leading zeros.

A date, a time, or a date with a time is checked but not kept: no declaration has a place for one.
-/

namespace ExtensionKit.Toml

/-! ## Numbers -/

/-- Takes an optional sign off the front. -/
def takeSign : List Char → List Char × List Char
  | '+' :: rest => (['+'], rest)
  | '-' :: rest => (['-'], rest)
  | cs => ([], cs)

/-- Reads the digits after the first, of which each may have an underscore before it. -/
def readMoreDigits (isDigit : Char → Bool) : List Char → Step (List Char)
  | [] => some ([], [])
  | '_' :: c :: rest =>
    if isDigit c then (readMoreDigits isDigit rest).map fun (ds, rest) => (c :: ds, rest) else none
  | c :: rest =>
    if isDigit c then (readMoreDigits isDigit rest).map fun (ds, rest) => (c :: ds, rest)
    else if c = '_' then none
    else some ([], c :: rest)

/-- Reads digits with underscores between them. -/
def readDigits (isDigit : Char → Bool) : List Char → Step (List Char)
  | [] => none
  | c :: rest =>
    if isDigit c then (readMoreDigits isDigit rest).map fun (ds, rest) => (c :: ds, rest) else none

/-- Reads an integer in decimal with its sign: a single zero, or digits that do not start with one. -/
def readDecimal (cs : List Char) : Step (List Char) :=
  match takeSign cs with
  | (sign, '0' :: rest) => some (sign ++ ['0'], rest)
  | (sign, cs) => (readDigits Text.isDigit cs).map fun (ds, rest) => (sign ++ ds, rest)

/-- Reads an exponent with its letter. -/
def readExponent : List Char → Step (List Char)
  | c :: rest =>
    if c = 'e' ∨ c = 'E' then
      let (sign, rest) := takeSign rest
      (readDigits Text.isDigit rest).map fun (ds, rest) => ('e' :: sign ++ ds, rest)
    else none
  | [] => none

/-- Reads what makes a number with an integer part a binary one: a fraction, an exponent, or both. -/
def readFraction (cs : List Char) : Step (List Char) :=
  match cs with
  | '.' :: rest =>
    (readDigits Text.isDigit rest).map fun (ds, rest) =>
      match readExponent rest with
      | some (exponent, rest) => ('.' :: ds ++ exponent, rest)
      | none => ('.' :: ds, rest)
  | cs => readExponent cs

/-- Reads a binary number with an integer part. What is too large has no value, but what is too small
is an infinity. -/
def readFinite (cs : List Char) : Option (Binary64 × List Char) := do
  let (whole, cs) ← readDecimal cs
  let (fraction, cs) ← readFraction cs
  let x ← Binary64.ofText? (whole ++ fraction)
  if x = .infinite false then none else some (x, cs)

/-- Reads an infinity or `nan`. -/
def readSpecial (cs : List Char) : Step Binary64 :=
  match takeSign cs with
  | (sign, 'i' :: 'n' :: 'f' :: rest) => some (.infinite (sign == ['-']), rest)
  | (_, 'n' :: 'a' :: 'n' :: rest) => some (.nan, rest)
  | _ => none

/-- Reads the digits of an integer with a base, up to sixteen, after the mark of the base. -/
def readBased (base : Nat) (cs : List Char) : Step Int :=
  let value? (c : Char) : Option Nat := (Text.hexDigitValue? c).filter (· < base)
  (readDigits (fun c => (value? c).isSome) cs).map fun (ds, rest) =>
    let n : Nat := ds.foldl (fun n c => base * n + (value? c).getD 0) 0
    (n, rest)

/-- Reads an integer, however large. -/
def readUnbounded : List Char → Step Int
  | '0' :: 'x' :: rest => readBased 16 rest
  | '0' :: 'o' :: rest => readBased 8 rest
  | '0' :: 'b' :: rest => readBased 2 rest
  | cs => (readDecimal cs).map fun (ds, rest) =>
    match ds with
    | '-' :: ds => (-(Text.numeralValue ds : Int), rest)
    | '+' :: ds => (Text.numeralValue ds, rest)
    | ds => (Text.numeralValue ds, rest)

/-- Reads an integer of 64 bits. -/
def readInteger (cs : List Char) : Step Json :=
  (readUnbounded cs).bind fun (i, rest) =>
    if -0x8000000000000000 ≤ i ∧ i < 0x8000000000000000 then some (.ofInt64 (.ofInt i), rest)
    else none

/-! ## Dates and times -/

/-- Takes a character off the front. -/
def expect? (c : Char) : List Char → Option (List Char)
  | d :: rest => if d = c then some rest else none
  | [] => none

/-- Reads a number of exactly `n` digits between two bounds. -/
def readBetween (n low high : Nat) (cs : List Char) : Step Nat :=
  let ds := cs.take n
  let value := Text.numeralValue ds
  if ds.length = n ∧ ds.all Text.isDigit ∧ low ≤ value ∧ value ≤ high then some (value, cs.drop n)
  else none

/-- Takes a date of the calendar off the front. -/
def skipDate? (cs : List Char) : Option (List Char) := do
  let (year, cs) ← readBetween 4 0 9999 cs
  let cs ← expect? '-' cs
  let (month, cs) ← readBetween 2 1 12 cs
  let cs ← expect? '-' cs
  let (day, cs) ← readBetween 2 1 31 cs
  if (Date.mk year month day).isValid then some cs else none

/-- Takes a fraction of a second off the front, if there is one. -/
def skipFraction? : List Char → Option (List Char)
  | '.' :: rest =>
    match rest.takeWhile Text.isDigit with
    | [] => none
    | _ => some (rest.dropWhile Text.isDigit)
  | cs => some cs

/-- Takes a time of day off the front. -/
def skipTime? (cs : List Char) : Option (List Char) := do
  let (_, cs) ← readBetween 2 0 23 cs
  let cs ← expect? ':' cs
  let (_, cs) ← readBetween 2 0 59 cs
  let cs ← expect? ':' cs
  let (_, cs) ← readBetween 2 0 60 cs
  skipFraction? cs

/-- Takes hours and minutes off the front. -/
def skipHoursMinutes? (cs : List Char) : Option (List Char) := do
  let (_, cs) ← readBetween 2 0 23 cs
  let cs ← expect? ':' cs
  let (_, cs) ← readBetween 2 0 59 cs
  some cs

/-- Takes an offset from UTC off the front, if there is one. -/
def skipOffset? : List Char → Option (List Char)
  | 'Z' :: rest => some rest
  | 'z' :: rest => some rest
  | '+' :: rest => skipHoursMinutes? rest
  | '-' :: rest => skipHoursMinutes? rest
  | cs => some cs

/-- Takes the time after a date off the front, if there is one. -/
def skipTimeOfDate? : List Char → Option (List Char)
  | c :: rest =>
    if c = 'T' ∨ c = 't' ∨ c = ' ' then
      match skipTime? rest with
      | some rest => skipOffset? rest
      | none => some (c :: rest)
    else some (c :: rest)
  | [] => some []

/-- Takes a date, a time, or a date with a time off the front. -/
def skipMoment? (cs : List Char) : Option (List Char) :=
  ((skipDate? cs).bind skipTimeOfDate?).or (skipTime? cs)

/-! ## What they stand for -/

/-- Reads a number, a date or a time. A date or a time counts as an object without members. -/
def readScalar? (cs : List Char) : Step Json :=
  ((skipMoment? cs).map fun rest => (Json.object [], rest)).or <|
    (((readFinite cs).or (readSpecial cs)).map fun (x, rest) => (Json.ofBinary64 x, rest)).or <|
      readInteger cs

end ExtensionKit.Toml
