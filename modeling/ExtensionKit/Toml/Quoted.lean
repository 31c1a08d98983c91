import ExtensionKit.Text.Numeral
import ExtensionKit.Toml.Blank

/-!
# Strings of TOML

A string is basic, in double quotes and with escapes, or literal, in single quotes and without. Each has
a form for one line and a form for many, whose quotes are tripled. In the long form an end of line right
after the opening quotes does not count, every other one is a line feed, and up to two quotes may stand
before the closing ones. A backslash at the end of a line takes away the end and all space after it.
-/

namespace ExtensionKit.Toml

/-- Reads the number that an escape of exactly `n` hexadecimal digits stands for. -/
def readHex : (n : Nat) → (value : Nat) → List Char → Step Nat
  | 0, value, cs => some (value, cs)
  | _ + 1, _, [] => none
  | n + 1, value, c :: rest =>
    (Text.hexDigitValue? c).bind fun d => readHex n (16 * value + d) rest

/-- Reads a character given by `n` hexadecimal digits. -/
def readScalar (n : Nat) (cs : List Char) : Step Char :=
  (readHex n 0 cs).bind fun (code, rest) =>
    if code.isValidChar then some (Char.ofNat code, rest) else none

/-- Reads an escape after its backslash. -/
def readEscape : List Char → Step Char
  | 'b' :: rest => some (Char.ofNat 0x08, rest)
  | 't' :: rest => some ('\t', rest)
  | 'n' :: rest => some ('\n', rest)
  | 'f' :: rest => some (Char.ofNat 0x0C, rest)
  | 'r' :: rest => some ('\r', rest)
  | '"' :: rest => some ('"', rest)
  | '\\' :: rest => some ('\\', rest)
  | 'u' :: rest => readScalar 4 rest
  | 'U' :: rest => readScalar 8 rest
  | _ => none

/-- Puts a character before what a reader finds next. -/
def consStep (c : Char) : Step (List Char) → Step (List Char) :=
  Option.map fun (cs, rest) => (c :: cs, rest)

/-- Reads the characters of a string of one line up to its closing quote. -/
def readLine (quote : Char) (escapes : Bool) : (bound : Nat) → List Char → Step (List Char)
  | 0, _ => none
  | _ + 1, [] => none
  | bound + 1, c :: rest =>
    if c = quote then some ([], rest)
    else if escapes && c == '\\' then
      (readEscape rest).bind fun (c, rest) => consStep c (readLine quote escapes bound rest)
    else if isPlain c then consStep c (readLine quote escapes bound rest)
    else none

/-- The text without the space and the ends of lines at its front. -/
def skipBlank : List Char → List Char
  | ' ' :: rest => skipBlank rest
  | '\t' :: rest => skipBlank rest
  | '\n' :: rest => skipBlank rest
  | '\r' :: '\n' :: rest => skipBlank rest
  | cs => cs

/-- Reads the characters of a string of many lines up to its closing quotes. -/
def readLines (quote : Char) (escapes : Bool) : (bound : Nat) → List Char → Step (List Char)
  | 0, _ => none
  | _ + 1, [] => none
  | bound + 1, c :: rest =>
    if c = quote then
      let quotes := c :: rest.takeWhile (· == quote)
      if quotes.length < 3 then consStep c (readLines quote escapes bound rest)
      else if quotes.length ≤ 5 then
        some (quotes.drop 3, rest.dropWhile (· == quote))
      else none
    else match newline? (c :: rest) with
      | some rest => consStep '\n' (readLines quote escapes bound rest)
      | none =>
        if escapes && c == '\\' then
          match newline? (skipSpace rest) with
          | some rest => readLines quote escapes bound (skipBlank rest)
          | none =>
            (readEscape rest).bind fun (c, rest) => consStep c (readLines quote escapes bound rest)
        else if isPlain c then consStep c (readLines quote escapes bound rest)
        else none

/-- Reads a string of many lines after its opening quotes. -/
def readLong (quote : Char) (escapes : Bool) (cs : List Char) : Step (List Char) :=
  readLines quote escapes (cs.length + 1) ((newline? cs).getD cs)

/-- Reads a string of one line after its opening quote. -/
def readShort (quote : Char) (escapes : Bool) (cs : List Char) : Step (List Char) :=
  readLine quote escapes (cs.length + 1) cs

/-- Reads a string of one of the four forms. -/
def readString : List Char → Step (List Char)
  | '"' :: '"' :: '"' :: rest => readLong '"' true rest
  | '"' :: rest => readShort '"' true rest
  | '\'' :: '\'' :: '\'' :: rest => readLong '\'' false rest
  | '\'' :: rest => readShort '\'' false rest
  | _ => none

/-! ## Keys -/

/-- The characters of keys without quotes. -/
def isBare (c : Char) : Bool :=
  ('A' ≤ c && c ≤ 'Z') || ('a' ≤ c && c ≤ 'z') || Text.isDigit c || c == '-' || c == '_'

/-- Reads one part of a key. -/
def readKeyPart : List Char → Step (List Char)
  | '"' :: rest => readShort '"' true rest
  | '\'' :: rest => readShort '\'' false rest
  | cs =>
    match cs.takeWhile isBare with
    | [] => none
    | part => some (part, cs.dropWhile isBare)

end ExtensionKit.Toml
