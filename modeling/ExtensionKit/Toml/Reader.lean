import ExtensionKit.Toml.Entries
import ExtensionKit.Toml.Quoted
import ExtensionKit.Toml.Scalar

/-!
# Reading TOML

`Toml.read` takes a text to the members of the object that it stands for. The text is read line by line
into a document; only when all lines have been read are the tables put together.

Arrays and inline tables nest to a limited depth, and a key has a limited number of parts. An array may
run over many lines and end with a comma; an inline table may not.
-/

namespace ExtensionKit.Toml

/-- How many brackets and braces may nest, and how many parts a key may have. -/
def greatestDepth : Nat := 79

/-- Reads a key of at most some number of parts, with the space around it. -/
def readPath : (most : Nat) → List Char → Step Path
  | 0, _ => none
  | most + 1, cs =>
    (readKeyPart (skipSpace cs)).bind fun (part, rest) =>
      match skipSpace rest with
      | '.' :: rest => (readPath most rest).map fun (path, rest) =>
        ({ path with parents := String.ofList part :: path.parents }, rest)
      | rest => some (⟨[], String.ofList part⟩, rest)

/-- Reads a key, an equals sign and a value, with the space around them. -/
def readAssignment (value : List Char → Step Json) (cs : List Char) :
    Option (Assignment × List Char) := do
  let (path, cs) ← readPath greatestDepth cs
  let cs ← expect? '=' cs
  let (value, cs) ← value (skipSpace cs)
  some (⟨path, value⟩, skipSpace cs)

/-- Reads the items of an array and its closing bracket. -/
def readItems (item : List Char → Step Json) : (bound : Nat) → List Char →
    Option (List Json × List Char)
  | 0, _ => none
  | bound + 1, cs => do
    match ← skipLines? (cs.length + 1) cs with
    | ']' :: rest => some ([], rest)
    | cs =>
      let (value, cs) ← item cs
      match ← skipLines? (cs.length + 1) cs with
      | ']' :: rest => some ([value], rest)
      | ',' :: rest =>
        let (values, rest) ← readItems item bound rest
        some (value :: values, rest)
      | _ => none

/-- Reads the assignments of an inline table, at least one, and its closing brace. -/
def readAssignments (value : List Char → Step Json) : (bound : Nat) → List Char →
    Option (List Assignment × List Char)
  | 0, _ => none
  | bound + 1, cs => do
    let (a, cs) ← readAssignment value cs
    match cs with
    | '}' :: rest => some ([a], rest)
    | ',' :: rest =>
      let (as, rest) ← readAssignments value bound rest
      some (a :: as, rest)
    | _ => none

/-- Reads a value. -/
def readValue (depth : Nat) : List Char → Option (Json × List Char)
  | '"' :: rest => (readString ('"' :: rest)).map fun (s, rest) => (.string (String.ofList s), rest)
  | '\'' :: rest =>
    (readString ('\'' :: rest)).map fun (s, rest) => (.string (String.ofList s), rest)
  | 't' :: 'r' :: 'u' :: 'e' :: rest => some (.bool true, rest)
  | 'f' :: 'a' :: 'l' :: 's' :: 'e' :: rest => some (.bool false, rest)
  | '[' :: rest =>
    match depth with
    | 0 => none
    | depth + 1 =>
      (readItems (readValue depth) (rest.length + 1) rest).map fun (items, rest) =>
        (.array items, rest)
  | '{' :: rest =>
    match depth with
    | 0 => none
    | depth + 1 =>
      match skipSpace rest with
      | '}' :: rest => some (.object [], rest)
      | rest => do
        let (as, rest) ← readAssignments (readValue depth) (rest.length + 1) rest
        some (← inlineObject? as, rest)
  | cs => readScalar? cs

/-! ## Documents -/

/-- What a line may hold besides space and a comment. -/
inductive Line where
  | header (header : Header)
  | assignment (assignment : Assignment)

/-- Reads a header or an assignment. -/
def readLineContent : List Char → Option (Line × List Char)
  | '[' :: '[' :: rest => do
    let (path, cs) ← readPath greatestDepth rest
    let cs ← (expect? ']' cs).bind (expect? ']')
    some (.header (.arrayItem path), cs)
  | '[' :: rest => do
    let (path, cs) ← readPath greatestDepth rest
    let cs ← expect? ']' cs
    some (.header (.table path), cs)
  | cs => (readAssignment (readValue greatestDepth) cs).map fun (a, rest) => (.assignment a, rest)

/-- Reads all lines, or finds the rest of the text from the first that cannot be read. -/
def readAllLines : (bound : Nat) → List Char → Except (List Char) (List Line)
  | 0, cs => .error cs
  | bound + 1, cs =>
    match skipSpace cs with
    | [] => .ok []
    | cs =>
      match endOfLine? cs with
      | some rest => readAllLines bound rest
      | none =>
        match readLineContent cs with
        | none => .error cs
        | some (line, rest) =>
          match endOfLine? rest with
          | none => .error cs
          | some rest => (readAllLines bound rest).map (line :: ·)

/-- Gathers the lines of a text under their headers. -/
def Document.ofLines : List Line → Document
  | [] => ⟨[], []⟩
  | .assignment a :: rest =>
    let d := ofLines rest
    { d with assignments := a :: d.assignments }
  | .header h :: rest =>
    let d := ofLines rest
    ⟨[], ⟨h, d.assignments⟩ :: d.sections⟩

/-- Why a text is not TOML. -/
inductive Fault where
  /-- the line of this number cannot be read -/
  | unreadable (line : Nat)
  /-- the lines can be read, but a key or a table is given twice -/
  | conflict
deriving DecidableEq, Repr

/-- The wording of a fault. -/
def Fault.message : Fault → String
  | .unreadable line => "line " ++ String.ofList (Text.decimal line) ++ " cannot be read"
  | .conflict => "a key is given twice"

/-- The text without the mark of its byte order. -/
def skipMark : List Char → List Char
  | c :: rest => if c.toNat = 0xFEFF then rest else c :: rest
  | [] => []

/-- Reads a text. -/
def read (text : List Char) : Except Fault Members :=
  match readAllLines (text.length + 1) (skipMark text) with
  | .error rest => .error (.unreadable (1 + (text.take (text.length - rest.length)).count '\n'))
  | .ok lines =>
    match (Document.ofLines lines).members? with
    | some members => .ok members
    | none => .error .conflict

end ExtensionKit.Toml
