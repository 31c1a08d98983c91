import ExtensionKit.Text.Capital
import ExtensionKit.Text.Numeral

/-!
# Identifiers of generated source

Declared names are arbitrary text; generated source needs identifiers. `Identifier.sanitize` replaces
what an identifier cannot hold and keeps clear of the reserved words. The *exported* identifier of a
name starts with a capital and names fields and types; the *local* one names the variable of an
argument.
-/

namespace ExtensionKit.Identifier

/-- The reserved words of generated source. -/
def keywords : List String :=
  ["abstract", "as", "async", "await", "become", "box", "break", "const", "continue", "crate",
    "do", "dyn", "else", "enum", "extern", "false", "final", "fn", "for", "gen", "if", "impl",
    "in", "let", "loop", "macro", "match", "mod", "move", "mut", "override", "priv", "pub",
    "ref", "return", "self", "Self", "static", "struct", "super", "trait", "true", "try", "type",
    "typeof", "unsafe", "unsized", "use", "virtual", "where", "while", "yield"]

/-- The words that cannot be identifiers even with the mark of a raw identifier. -/
def neverRaw : List String := ["crate", "self", "Self", "super", "_"]

/-- Whether a character may stand in an identifier. -/
def isWordCharacter (c : Char) : Bool :=
  ('a' ≤ c && c ≤ 'z') || ('A' ≤ c && c ≤ 'Z') || Text.isDigit c || c == '_'

/-- A character of a name as it stands in an identifier. -/
def wordCharacter (c : Char) : Char := if isWordCharacter c then c else '_'

/-- The identifier of an empty name. -/
def unnamed : List Char := "_unnamed".toList

/-- Puts an underscore before a digit at the start. -/
def guardDigit : List Char → List Char
  | [] => []
  | c :: rest => if Text.isDigit c then '_' :: c :: rest else c :: rest

/-- Keeps a word clear of the reserved ones: with the mark of a raw identifier before it, or with an
underscore after it if it cannot be raw. -/
def guardKeyword (word : List Char) : List Char :=
  if word ∈ neverRaw.map String.toList then word ++ ['_']
  else if word ∈ keywords.map String.toList then 'r' :: '#' :: word
  else word

/-- A name as an identifier. -/
def sanitize (name : List Char) : List Char :=
  match name.map wordCharacter with
  | [] => unnamed
  | word => guardKeyword (guardDigit word)

/-- A name with its first character in capitals, by a given rule for capitals. -/
def capitalizeBy (capital : Char → List Char) : List Char → List Char
  | [] => []
  | c :: rest => capital c ++ rest

/-- The exported identifier of a name, by a given rule for capitals. -/
def exportedBy (capital : Char → List Char) (name : List Char) : List Char :=
  sanitize (capitalizeBy capital name)

/-- The exported identifier of a name. -/
def exported (name : String) : String := String.ofList (exportedBy Text.capital name.toList)

/-- The plain identifier of a name. -/
def plain (name : String) : String := String.ofList (sanitize name.toList)

/-- The identifier of the variable of an argument. The name `params` is taken by the list that the
arguments come in. -/
def argument (name : String) : String :=
  let ident := plain name
  if ident = "params" then "params_" else ident

/-- The type name of a function. -/
def functionType (name : String) : String := exported name ++ "Func"

end ExtensionKit.Identifier
