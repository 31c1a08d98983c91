import ExtensionKit.Text.Numeral
import ExtensionKit.Text.Unprintable

/-!
# String literals

A text as a literal of generated source: in double quotes, with a backslash before quotes and
backslashes, the usual letters for tab, line feed, carriage return and null, and the number of every
other character that is not shown as it is. Generated source, messages and debug texts share the form.
-/

namespace ExtensionKit.Text.Literal

/-- A character inside a literal. -/
def escape (c : Char) : List Char :=
  if c = '"' then ['\\', '"']
  else if c = '\\' then ['\\', '\\']
  else if c = '\n' then ['\\', 'n']
  else if c = '\r' then ['\\', 'r']
  else if c = '\t' then ['\\', 't']
  else if c.toNat = 0 then ['\\', '0']
  else if isUnprintable c then ['\\', 'u', '{'] ++ hexadecimal c.toNat ++ ['}']
  else [c]

/-- A text as a literal. -/
def encode (cs : List Char) : List Char := '"' :: cs.flatMap escape ++ ['"']

/-- A string as a literal. -/
def quote (s : String) : String := String.ofList (encode s.toList)

end ExtensionKit.Text.Literal
