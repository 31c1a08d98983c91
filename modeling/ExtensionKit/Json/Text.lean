import ExtensionKit.Json.Basic
import ExtensionKit.Binary64.Shortest

/-!
# JSON text

Values as text. `Json.compact` writes no spaces; `Json.indented` puts each item and each member on a
line of its own, two spaces deeper than the bracket around them. In strings only the quote, the
backslash and the characters below the space are escaped.
-/

namespace ExtensionKit

/-- A character inside a quoted string. -/
def Json.escape (c : Char) : List Char :=
  if c = '"' then ['\\', '"']
  else if c = '\\' then ['\\', '\\']
  else if c.toNat = 0x08 then ['\\', 'b']
  else if c.toNat = 0x09 then ['\\', 't']
  else if c.toNat = 0x0A then ['\\', 'n']
  else if c.toNat = 0x0C then ['\\', 'f']
  else if c.toNat = 0x0D then ['\\', 'r']
  else if c.toNat < 0x20 then ['\\', 'u'] ++ Text.paddedHexadecimal 4 c.toNat
  else [c]

/-- A string in quotes. -/
def Json.quote (cs : List Char) : List Char := '"' :: cs.flatMap Json.escape ++ ['"']

/-- A number: integers in decimal, binary numbers with the fewest digits that read back. -/
def Number.text : Number → List Char
  | .integer i _ => Text.signedDecimal i
  | .float x => x.text

mutual

/-- Text without spaces. -/
def Json.compact : Json → List Char
  | .null => ['n', 'u', 'l', 'l']
  | .bool true => ['t', 'r', 'u', 'e']
  | .bool false => ['f', 'a', 'l', 's', 'e']
  | .number n => n.text
  | .string s => Json.quote s.toList
  | .array items => '[' :: Json.compactItems items ++ [']']
  | .object members => '{' :: Json.compactMembers members ++ ['}']

/-- Items with commas between them. -/
def Json.compactItems : List Json → List Char
  | [] => []
  | [item] => Json.compact item
  | item :: next :: rest => Json.compact item ++ ',' :: Json.compactItems (next :: rest)

/-- Members with commas between them. -/
def Json.compactMembers : List (String × Json) → List Char
  | [] => []
  | [(key, value)] => Json.quote key.toList ++ ':' :: Json.compact value
  | (key, value) :: next :: rest =>
    Json.quote key.toList ++ ':' :: Json.compact value ++ ',' :: Json.compactMembers (next :: rest)

end

/-- A line break and the indentation of a depth. -/
def Json.newline (depth : Nat) : List Char := '\n' :: List.replicate (2 * depth) ' '

mutual

/-- Text over several lines, for a value that stands at a depth. -/
def Json.indented (depth : Nat) : Json → List Char
  | .array [] => ['[', ']']
  | .array (item :: rest) =>
    '[' :: Json.indentedItems (depth + 1) (item :: rest) ++ Json.newline depth ++ [']']
  | .object [] => ['{', '}']
  | .object (member :: rest) =>
    '{' :: Json.indentedMembers (depth + 1) (member :: rest) ++ Json.newline depth ++ ['}']
  | .null => Json.compact .null
  | .bool b => Json.compact (.bool b)
  | .number n => Json.compact (.number n)
  | .string s => Json.compact (.string s)

/-- Items on lines of their own. -/
def Json.indentedItems (depth : Nat) : List Json → List Char
  | [] => []
  | [item] => Json.newline depth ++ Json.indented depth item
  | item :: next :: rest =>
    Json.newline depth ++ Json.indented depth item ++ ',' :: Json.indentedItems depth (next :: rest)

/-- Members on lines of their own. -/
def Json.indentedMembers (depth : Nat) : List (String × Json) → List Char
  | [] => []
  | [(key, value)] =>
    Json.newline depth ++ Json.quote key.toList ++ ':' :: ' ' :: Json.indented depth value
  | (key, value) :: next :: rest =>
    Json.newline depth ++ Json.quote key.toList ++ ':' :: ' ' :: Json.indented depth value ++
      ',' :: Json.indentedMembers depth (next :: rest)

end

/-- Text without spaces, as a string. -/
def Json.text (j : Json) : String := String.ofList j.compact

/-- Text over several lines, as a string. -/
def Json.prettyText (j : Json) : String := String.ofList (j.indented 0)

end ExtensionKit
