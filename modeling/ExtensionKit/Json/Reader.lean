import ExtensionKit.Json.Basic
import ExtensionKit.Json.Numeral

/-!
# Reading JSON text

The reader is a recursive descent over the characters. What it cannot read it blames on a place in
the text: a `Failure` holds what is left of the text where reading stopped, and how many bytes beyond
that point the fault lies, from which `Position` counts lines and columns.

The depth of a reader is the number of brackets and braces that may still open. Within an array or an
object the loop is bounded by the length of the text, since every turn takes at least one character.
An object with a repeated key keeps the place of the first member and the value of the last.
-/

namespace ExtensionKit.Json

/-- What is wrong with a text. -/
inductive Cause where
  | endInValue
  | endInObject
  | endInList
  | endInString
  | expectedValue
  | expectedIdent
  | expectedColon
  | expectedObjectCommaOrEnd
  | expectedListCommaOrEnd
  | keyMustBeString
  | trailingComma
  | trailingCharacters
  | invalidNumber
  | numberOutOfRange
  | invalidEscape
  | endOfHexEscape
  | loneSurrogate
  | controlCharacter
  | tooDeep
deriving DecidableEq, Repr

/-- The wording of a cause. -/
def Cause.message : Cause → String
  | .endInValue => "EOF while parsing a value"
  | .endInObject => "EOF while parsing an object"
  | .endInList => "EOF while parsing a list"
  | .endInString => "EOF while parsing a string"
  | .expectedValue => "expected value"
  | .expectedIdent => "expected ident"
  | .expectedColon => "expected `:`"
  | .expectedObjectCommaOrEnd => "expected `,` or `\x7d`"
  | .expectedListCommaOrEnd => "expected `,` or `]`"
  | .keyMustBeString => "key must be a string"
  | .trailingComma => "trailing comma"
  | .trailingCharacters => "trailing characters"
  | .invalidNumber => "invalid number"
  | .numberOutOfRange => "number out of range"
  | .invalidEscape => "invalid escape"
  | .endOfHexEscape => "unexpected end of hex escape"
  | .loneSurrogate => "lone leading surrogate in hex escape"
  | .controlCharacter => "control character (\\u0000-\\u001F) found while parsing a string"
  | .tooDeep => "recursion limit exceeded"

/-- A failure to read. -/
structure Failure where
  /-- what is wrong -/
  cause : Cause
  /-- what was left of the text -/
  rest : List Char
  /-- how many bytes of the rest are to blame -/
  ahead : Nat
deriving Repr

/-- The outcome of a reader: a result with the rest of the text, or a failure. -/
abbrev Reading (α : Type) := Except Failure (α × List Char)

/-- Goes on with what was read and with the rest of the text. -/
def Reading.andThen (r : Reading α) (next : α → List Char → Reading β) : Reading β :=
  match r with
  | .error f => .error f
  | .ok (a, rest) => next a rest

/-- Fails at the point reached. -/
def failHere (cause : Cause) (rest : List Char) : Except Failure α := .error ⟨cause, rest, 0⟩

/-- Fails over the next byte. -/
def failAt (cause : Cause) (rest : List Char) : Except Failure α := .error ⟨cause, rest, 1⟩

/-- White space between tokens. -/
def isSpace (c : Char) : Bool := c == ' ' || c == '\t' || c == '\n' || c == '\r'

/-- The text from its next token on. -/
def skipSpace (cs : List Char) : List Char := cs.dropWhile isSpace

/-- Reads the rest of one of the words `null`, `true` and `false`. -/
def readWord (value : Json) : List Char → List Char → Reading Json
  | [], cs => .ok (value, cs)
  | _ :: _, [] => failHere .endInValue []
  | w :: word, c :: cs => if c = w then readWord value word cs else failAt .expectedIdent (c :: cs)

/-! ## Numbers -/

/-- The greatest exponent that is computed with. -/
def greatestExponent : Nat := 2147483647

/-- The text after the digit that makes an exponent too large, if there is one. -/
def exponentOverflow? (n : Nat) : List Char → Option (List Char)
  | [] => none
  | c :: rest =>
    if Text.isDigit c then
      let n := 10 * n + Text.digitValue c
      if greatestExponent < n then some rest else exponentOverflow? n rest
    else none

/-- A number with a point or an exponent, or an integer beyond 64 bits. -/
def readFloat (negative : Bool) (digits : Nat) (exponent : Int) (rest : List Char) : Reading Json :=
  match numeral? negative digits exponent with
  | some x => .ok (.number (.float x), rest)
  | none => failHere .numberOutOfRange rest

/-- Reads an exponent after its mark. An exponent that is too large gives zero if it is negative or
the digits are all zero, and else a failure at the digit that makes it so. -/
def readExponent (negative : Bool) (digits : Nat) (exponent : Int) (cs : List Char) : Reading Json :=
  let (sign, cs) := match cs with
    | '+' :: rest => (false, rest)
    | '-' :: rest => (true, rest)
    | rest => (false, rest)
  match cs with
  | [] => failHere .endInValue []
  | c :: rest =>
    if Text.isDigit c then
      let run := c :: rest.takeWhile Text.isDigit
      let after := rest.dropWhile Text.isDigit
      match exponentOverflow? 0 (c :: rest) with
      | some blamed =>
        if digits ≠ 0 ∧ sign = false then failHere .numberOutOfRange blamed
        else readFloat negative 0 0 after
      | none =>
        let n : Int := Text.numeralValue run
        readFloat negative digits (exponent + (if sign then -n else n)) after
    else failAt .invalidNumber (c :: rest)

/-- A number with no point and no exponent. -/
def readInteger (negative : Bool) (whole : List Char) (rest : List Char) : Reading Json :=
  let magnitude := Text.numeralValue whole
  let value : Int := if negative then -magnitude else magnitude
  if h : (-0x8000000000000000 ≤ value ∧ value < 0x10000000000000000) ∧
      ¬ (negative = true ∧ magnitude = 0) then
    .ok (.number (.integer value h.1), rest)
  else
    let (digits, exponent) := absorbDigits whole []
    readFloat negative digits exponent rest

/-- What follows the digits of a number: an exponent or nothing. -/
def readAfterFraction (negative : Bool) (whole fraction : List Char) (cs : List Char) : Reading Json :=
  let (digits, exponent) := absorbDigits whole fraction
  match cs with
  | 'e' :: rest => readExponent negative digits exponent rest
  | 'E' :: rest => readExponent negative digits exponent rest
  | _ => readFloat negative digits exponent cs

/-- What follows the digits before the point: a fraction, an exponent, or nothing. -/
def readFraction (negative : Bool) (whole : List Char) : List Char → Reading Json
  | '.' :: rest =>
    let fraction := rest.takeWhile Text.isDigit
    let after := rest.dropWhile Text.isDigit
    if fraction = [] then
      match after with
      | [] => failHere .endInValue []
      | _ => failAt .invalidNumber after
    else readAfterFraction negative whole fraction after
  | 'e' :: rest => readAfterFraction negative whole [] ('e' :: rest)
  | 'E' :: rest => readAfterFraction negative whole [] ('E' :: rest)
  | rest => readInteger negative whole rest

/-- Reads a number after its sign. A zero is followed by no other digit. -/
def readNumber (negative : Bool) : List Char → Reading Json
  | [] => failHere .endInValue []
  | '0' :: rest =>
    match rest with
    | c :: _ => if Text.isDigit c then failAt .invalidNumber rest else readFraction negative ['0'] rest
    | [] => readFraction negative ['0'] []
  | c :: rest =>
    if Text.isDigit c then
      readFraction negative (c :: rest.takeWhile Text.isDigit) (rest.dropWhile Text.isDigit)
    else failAt .invalidNumber (c :: rest)

/-! ## Strings -/

/-- The number of bytes of a text. -/
def byteCount (cs : List Char) : Nat := cs.foldr (fun c n => c.utf8Size + n) 0

/-- Reads the four digits of a hexadecimal escape. -/
def readHex (cs : List Char) : Reading Nat :=
  let invalid : Except Failure (Nat × List Char) :=
    if 4 ≤ byteCount cs then .error ⟨.invalidEscape, cs, 4⟩ else failHere .endInString []
  match cs with
  | a :: b :: c :: d :: rest =>
    match Text.hexDigitValue? a, Text.hexDigitValue? b, Text.hexDigitValue? c,
        Text.hexDigitValue? d with
    | some a, some b, some c, some d => .ok (((a * 16 + b) * 16 + c) * 16 + d, rest)
    | _, _, _, _ => invalid
  | _ => invalid

/-- Reads the second half of a surrogate pair, whose first half stands for `high`. -/
def readLowSurrogate (high : Nat) : List Char → Reading Char
  | [] => failHere .endInString []
  | '\\' :: [] => failHere .endInString []
  | '\\' :: 'u' :: rest => (readHex rest).andThen fun low after =>
    if 0xDC00 ≤ low ∧ low ≤ 0xDFFF then
      .ok (Char.ofNat (0x10000 + (high - 0xD800) * 0x400 + (low - 0xDC00)), after)
    else failHere .loneSurrogate after
  | '\\' :: rest => failAt .endOfHexEscape rest
  | rest => failAt .endOfHexEscape rest

/-- Reads an escape after its backslash. -/
def readEscape : List Char → Reading Char
  | [] => failHere .endInString []
  | '"' :: rest => .ok ('"', rest)
  | '\\' :: rest => .ok ('\\', rest)
  | '/' :: rest => .ok ('/', rest)
  | 'b' :: rest => .ok (Char.ofNat 0x08, rest)
  | 'f' :: rest => .ok (Char.ofNat 0x0C, rest)
  | 'n' :: rest => .ok ('\n', rest)
  | 'r' :: rest => .ok ('\r', rest)
  | 't' :: rest => .ok ('\t', rest)
  | 'u' :: rest => (readHex rest).andThen fun code after =>
    if 0xDC00 ≤ code ∧ code ≤ 0xDFFF then failHere .loneSurrogate after
    else if 0xD800 ≤ code ∧ code ≤ 0xDBFF then readLowSurrogate code after
    else .ok (Char.ofNat code, after)
  | rest => failAt .invalidEscape rest

/-- Reads the characters of a string up to its closing quote. The bound is on the characters read. -/
def readCharacters : Nat → List Char → Reading (List Char)
  | _, [] => failHere .endInString []
  | 0, rest => failHere .endInString rest
  | _ + 1, '"' :: rest => .ok ([], rest)
  | bound + 1, '\\' :: rest =>
    (readEscape rest).andThen fun c after =>
    (readCharacters bound after).andThen fun cs after => .ok (c :: cs, after)
  | bound + 1, c :: rest =>
    if c.toNat < 0x20 then failAt .controlCharacter (c :: rest)
    else (readCharacters bound rest).andThen fun cs after => .ok (c :: cs, after)

/-- Reads a string after its opening quote. -/
def readString (cs : List Char) : Reading String :=
  (readCharacters (cs.length + 1) cs).andThen fun content after =>
    .ok (String.ofList content, after)

/-! ## Arrays and objects -/

/-- Reads the items of an array from its first one, or from a comma on, up to the closing bracket. -/
def readItems (item : List Char → Reading Json) : (bound : Nat) → (first : Bool) → List Char →
    Reading (List Json)
  | 0, _, cs => failHere .endInList cs
  | bound + 1, first, cs =>
    let next (cs : List Char) : Reading (List Json) :=
      match skipSpace cs with
      | [] => failHere .endInValue []
      | ']' :: rest => failAt .trailingComma (']' :: rest)
      | cs =>
        (item cs).andThen fun value after =>
        (readItems item bound false after).andThen fun values after => .ok (value :: values, after)
    match skipSpace cs with
    | [] => failHere .endInList []
    | ']' :: rest => .ok ([], rest)
    | ',' :: rest => if first then next (',' :: rest) else next rest
    | rest => if first then next rest else failAt .expectedListCommaOrEnd rest

/-- Reads a member from its key on. -/
def readMember (item : List Char → Reading Json) : List Char → Reading (String × Json)
  | [] => failHere .endInValue []
  | '"' :: rest => (readString rest).andThen fun key after =>
    match skipSpace after with
    | [] => failHere .endInObject []
    | ':' :: rest => (item (skipSpace rest)).andThen fun value after => .ok ((key, value), after)
    | rest => failAt .expectedColon rest
  | '}' :: rest => failAt .trailingComma ('}' :: rest)
  | rest => failAt .keyMustBeString rest

/-- Reads the members of an object up to the closing brace, into those already read. -/
def readMembers (item : List Char → Reading Json) : (bound : Nat) → (first : Bool) → Members →
    List Char → Reading Members
  | 0, _, _, cs => failHere .endInObject cs
  | bound + 1, first, members, cs =>
    let next (cs : List Char) : Reading Members :=
      (readMember item (skipSpace cs)).andThen fun (key, value) after =>
        readMembers item bound false (members.insert key value) after
    match skipSpace cs with
    | [] => failHere .endInObject []
    | '}' :: rest => .ok (members, rest)
    | ',' :: rest => if first then next (',' :: rest) else next rest
    | rest => if first then next rest else failAt .expectedObjectCommaOrEnd rest

/-- Reads a value that starts at the first character. -/
def readValue (depth : Nat) : List Char → Reading Json
  | [] => failHere .endInValue []
  | 'n' :: rest => readWord .null ['u', 'l', 'l'] rest
  | 't' :: rest => readWord (.bool true) ['r', 'u', 'e'] rest
  | 'f' :: rest => readWord (.bool false) ['a', 'l', 's', 'e'] rest
  | '-' :: rest => readNumber true rest
  | '"' :: rest => (readString rest).andThen fun s after => .ok (.string s, after)
  | '[' :: rest =>
    match depth with
    | 0 => failAt .tooDeep ('[' :: rest)
    | depth + 1 =>
      (readItems (readValue depth) (rest.length + 1) true rest).andThen fun items after =>
        .ok (.array items, after)
  | '{' :: rest =>
    match depth with
    | 0 => failAt .tooDeep ('{' :: rest)
    | depth + 1 =>
      (readMembers (readValue depth) (rest.length + 1) true [] rest).andThen fun members after =>
        .ok (.object members, after)
  | c :: rest =>
    if Text.isDigit c then readNumber false (c :: rest) else failAt .expectedValue (c :: rest)

/-- How many brackets and braces may nest. -/
def greatestDepth : Nat := 127

/-- Reads a text that is one value with white space around it. -/
def read (cs : List Char) : Except Failure Json :=
  match readValue greatestDepth (skipSpace cs) with
  | .error f => .error f
  | .ok (value, after) =>
    match skipSpace after with
    | [] => .ok value
    | rest => failAt .trailingCharacters rest

/-! ## Places -/

/-- A place in a text. -/
structure Position where
  /-- the line, from one -/
  line : Nat
  /-- how many bytes of the line come before the place -/
  column : Nat
deriving DecidableEq, Repr

/-- The place after some bytes. -/
def Position.after (bytes : List UInt8) : Position :=
  bytes.foldl (fun p b => if b = 0x0A then ⟨p.line + 1, 0⟩ else ⟨p.line, p.column + 1⟩) ⟨1, 0⟩

/-- The place that a failure in a text blames. -/
def Failure.position (f : Failure) (text : List Char) : Position :=
  let bytes := (String.ofList text).toUTF8.toList
  .after (bytes.take (bytes.length - byteCount f.rest + f.ahead))

end ExtensionKit.Json
