/-!
# Numerals

Naturals and integers in decimal, and naturals in hexadecimal, as lists of characters, together with
the value of a run of decimal digits.
-/

namespace ExtensionKit.Text

/-- The decimal digits. -/
def isDigit (c : Char) : Bool := '0' ≤ c && c ≤ '9'

/-- The number that a decimal digit stands for. -/
def digitValue (c : Char) : Nat := c.toNat - '0'.toNat

/-- The digit of a number below ten. -/
def digit (d : Nat) : Char := Char.ofNat ('0'.toNat + d)

/-- A natural in decimal, without leading zeros; zero is `0`. -/
def decimal (n : Nat) : List Char :=
  if n < 10 then [digit n] else decimal (n / 10) ++ [digit (n % 10)]
termination_by n
decreasing_by omega

/-- An integer in decimal, with a minus sign if it is negative. -/
def signedDecimal (i : Int) : List Char :=
  if i < 0 then '-' :: decimal i.natAbs else decimal i.natAbs

/-- The value of a run of decimal digits; the empty run is zero. -/
def numeralValue (cs : List Char) : Nat := cs.foldl (fun n c => 10 * n + digitValue c) 0

/-- The lower-case hexadecimal digit of a number below sixteen. -/
def hexDigit (d : Nat) : Char :=
  if d < 10 then digit d else Char.ofNat ('a'.toNat + (d - 10))

/-- A natural in lower-case hexadecimal, without leading zeros; zero is `0`. -/
def hexadecimal (n : Nat) : List Char :=
  if n < 16 then [hexDigit n] else hexadecimal (n / 16) ++ [hexDigit (n % 16)]
termination_by n
decreasing_by omega

/-- A natural in hexadecimal with at least `width` digits. -/
def paddedHexadecimal (width n : Nat) : List Char :=
  let ds := hexadecimal n
  List.replicate (width - ds.length) '0' ++ ds

/-- The number that a hexadecimal digit of either case stands for. -/
def hexDigitValue? (c : Char) : Option Nat :=
  if isDigit c then some (digitValue c)
  else if 'a' ≤ c && c ≤ 'f' then some (c.toNat - 'a'.toNat + 10)
  else if 'A' ≤ c && c ≤ 'F' then some (c.toNat - 'A'.toNat + 10)
  else none

/-- A natural in decimal with at least `width` digits. -/
def paddedDecimal (width n : Nat) : List Char :=
  let ds := decimal n
  List.replicate (width - ds.length) '0' ++ ds

end ExtensionKit.Text
