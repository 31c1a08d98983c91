/-!
# Space, comments and ends of lines

What stands between the tokens of a TOML text. A line ends with a line feed, which a carriage return may
precede; the last one may end with the text. A comment runs to the end of its line. A carriage return
elsewhere, and every other control character but the tab, is refused wherever it stands.

Every reader of TOML takes a list of characters and returns what is left of it, or nothing if the text
does not have the form that the reader asks for.
-/

namespace ExtensionKit.Toml

/-- What a reader found and what is left of the text. -/
abbrev Step (α : Type) := Option (α × List Char)

/-- The characters that may stand in comments and strings. -/
def isPlain (c : Char) : Bool := c == '\t' || (0x20 ≤ c.toNat && c.toNat != 0x7F)

/-- The space within a line. -/
def isSpace (c : Char) : Bool := c == ' ' || c == '\t'

/-- The text without the space at its front. -/
def skipSpace (cs : List Char) : List Char := cs.dropWhile isSpace

/-- Takes the end of a line off the front. -/
def newline? : List Char → Option (List Char)
  | '\n' :: rest => some rest
  | '\r' :: '\n' :: rest => some rest
  | _ => none

/-- The text without the comment at its front, if there is one. -/
def skipComment : List Char → List Char
  | '#' :: rest => rest.dropWhile isPlain
  | cs => cs

/-- Takes space, a comment and the end of the line or of the text off the front. -/
def endOfLine? (cs : List Char) : Option (List Char) :=
  match skipComment (skipSpace cs) with
  | [] => some []
  | rest => newline? rest

/-- Takes lines off the front that hold nothing but space and comments, and the space of the next. A
comment must have an end of line after it. -/
def skipLines? : (bound : Nat) → List Char → Option (List Char)
  | 0, _ => none
  | bound + 1, cs =>
    match skipSpace cs with
    | '#' :: rest => (newline? (skipComment ('#' :: rest))).bind (skipLines? bound)
    | cs =>
      match newline? cs with
      | some rest => skipLines? bound rest
      | none => some cs

end ExtensionKit.Toml
