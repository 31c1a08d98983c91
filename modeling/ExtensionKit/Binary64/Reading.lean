import ExtensionKit.Binary64.Nearest
import ExtensionKit.Text.Numeral

/-!
# Reading numbers from text

`Binary64.ofText?` reads an optional sign and then one of the words for infinity and `nan` in any
case, or decimal digits with an optional point and an optional exponent. At least one digit must
stand before or after the point. The number is rounded to the nearest; what is too large is infinite.

`integerOfText?` reads an optional sign and decimal digits, and says in which way another text fails.
-/

namespace ExtensionKit

/-- The sign at the front of a numeral, if there is one, and what follows it. -/
def splitSign : List Char → Bool × List Char
  | '-' :: rest => (true, rest)
  | '+' :: rest => (false, rest)
  | cs => (false, cs)

namespace Binary64

/-- The exponent part of a numeral: nothing, or a mark, an optional sign and digits. -/
def exponentOfText? : List Char → Option Int
  | [] => some 0
  | mark :: rest =>
    if mark == 'e' || mark == 'E' then
      let (negative, ds) := splitSign rest
      if ds ≠ [] ∧ ds.all Text.isDigit then
        let n : Int := Text.numeralValue ds
        some (if negative then -n else n)
      else none
    else none

/-- The digits of a numeral before and after its point, and what follows them. -/
def splitMantissa (cs : List Char) : List Char × List Char × List Char :=
  let whole := cs.takeWhile Text.isDigit
  match cs.dropWhile Text.isDigit with
  | '.' :: rest => (whole, rest.takeWhile Text.isDigit, rest.dropWhile Text.isDigit)
  | rest => (whole, [], rest)

/-- Reads a number. -/
def ofText? (cs : List Char) : Option Binary64 :=
  let (negative, body) := splitSign cs
  let word := body.map Char.toLower
  if word = "inf".toList ∨ word = "infinity".toList then some (.infinite negative)
  else if word = "nan".toList then some .nan
  else
    let (whole, fraction, rest) := splitMantissa body
    if whole = [] ∧ fraction = [] then none
    else (exponentOfText? rest).map fun exponent =>
      ofDecimal negative (Text.numeralValue (whole ++ fraction)) (exponent - fraction.length)

end Binary64

/-- Why a text is not an integer of 64 bits. -/
inductive IntegerFault where
  /-- there is no digit, or something else than digits -/
  | invalidDigit
  /-- it is above the greatest one -/
  | tooLarge
  /-- it is below the least one -/
  | tooSmall
deriving DecidableEq, Repr

/-- Reads an integer of 64 bits. The digits are taken one after another, so of a numeral that is both
too long and followed by a foreign character the fault that comes first is reported. -/
def integerOfText? (cs : List Char) : Except IntegerFault Int64 :=
  let (negative, ds) := splitSign cs
  if ds = [] then .error .invalidDigit else go negative 0 ds
where
  /-- Reads the digits after those of value `n`. -/
  go (negative : Bool) (n : Nat) : List Char → Except IntegerFault Int64
    | [] => .ok (if negative then Int64.ofInt (-n) else Int64.ofInt n)
    | c :: rest =>
      if Text.isDigit c then
        let n := 10 * n + Text.digitValue c
        if negative then
          if 0x8000000000000000 < n then .error .tooSmall else go negative n rest
        else if 0x8000000000000000 ≤ n then .error .tooLarge
        else go negative n rest
      else .error .invalidDigit

end ExtensionKit
