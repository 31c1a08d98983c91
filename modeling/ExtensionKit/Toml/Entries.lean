import ExtensionKit.Json.Basic

/-!
# Tables of TOML

A document is a list of assignments followed by sections, each a header with assignments of its own.
Assignments and headers name their place by a path of keys and bring the tables on the way into being.
Whether a table may be extended later depends on where it comes from:

* a table of a header is closed to dotted keys and to a second header of its own;
* a table that a longer header implies may still get a header, and then moves to the end of its parent;
* a table of dotted keys is open to further dotted keys;
* in an array of tables the last one stands for all;
* a value, and so every array and every inline table, is never extended.

`Document.members?` puts a document together and finds nothing if some part of it is refused.
-/

namespace ExtensionKit.Toml

/-- A key with the keys of the tables that it is in. -/
structure Path where
  /-- the keys of the tables, from the outside in -/
  parents : List String
  /-- the key itself -/
  key : String
deriving DecidableEq, Repr

/-- A value for a key. -/
structure Assignment where
  /-- the key -/
  path : Path
  /-- the value -/
  value : Json

/-- A header: of one table, or of an array of tables to which it adds one. -/
inductive Header where
  | table (path : Path)
  | arrayItem (path : Path)

/-- A header and the assignments under it. -/
structure Section where
  /-- the header -/
  header : Header
  /-- the assignments -/
  assignments : List Assignment

/-- The parts of a text. -/
structure Document where
  /-- the assignments before the first header -/
  assignments : List Assignment
  /-- the sections -/
  sections : List Section

/-- Where a table comes from. -/
inductive Origin where
  /-- a header of its own -/
  | header
  /-- the header of a table in it -/
  | implied
  /-- a dotted key -/
  | dotted
deriving DecidableEq, Repr

/-- What a key stands for. -/
inductive Item where
  | value (value : Json)
  | table (origin : Origin) (entries : List (String × Item))
  /-- an array of tables: those before the last, and the last -/
  | tables (closed : List Json) (last : List (String × Item))

/-- The entries of a table in order. -/
abbrev Entries := List (String × Item)

mutual

/-- What an item is outside the document. -/
def Item.toJson : Item → Json
  | .value value => value
  | .table _ entries => .object (membersOf entries)
  | .tables closed last => .array (closed ++ [.object (membersOf last)])

/-- The members of the object that a table is outside the document. -/
def membersOf : List (String × Item) → Members
  | [] => []
  | (key, item) :: rest => (key, item.toJson) :: membersOf rest

end

namespace Entries

/-- Sets the item of a key: where the key stands already, else at the end. -/
def put : Entries → String → Item → Entries
  | [], key, item => [(key, item)]
  | (k, i) :: rest, key, item => if k = key then (k, item) :: rest else (k, i) :: put rest key item

/-- Removes a key. -/
def remove (es : Entries) (key : String) : Entries := es.filter fun e => e.1 != key

/-- Assigns a value to a key in the table at a path of dotted keys. Only a table of dotted keys, or the
one that the path starts from, takes assignments. -/
def assign (key : String) (value : Json) :
    (path : List String) → (isOpen : Bool) → Entries → Option Entries
  | [], isOpen, es =>
    if isOpen && (es.lookup key).isNone then some (es ++ [(key, .value value)]) else none
  | k :: path, _, es =>
    match es.lookup k with
    | none => (assign key value path true []).map fun sub => es ++ [(k, .table .dotted sub)]
    | some (.table .header _) => none
    | some (.table origin sub) =>
      (assign key value path (origin == .dotted) sub).map fun sub => es.put k (.table origin sub)
    | some (.tables closed last) =>
      (assign key value path false last).map fun last => es.put k (.tables closed last)
    | some (.value _) => none

/-- Carries out assignments one after another. -/
def assignAll (es : Entries) (assignments : List Assignment) : Option Entries :=
  assignments.foldlM (fun es a => assign a.path.key a.value a.path.parents true es) es

/-- Changes the table at the path of a header. -/
def change (f : Entries → Option Entries) : (path : List String) → Entries → Option Entries
  | [], es => f es
  | k :: path, es =>
    match es.lookup k with
    | none => (change f path []).map fun sub => es ++ [(k, .table .implied sub)]
    | some (.table origin sub) => (change f path sub).map fun sub => es.put k (.table origin sub)
    | some (.tables closed last) =>
      (change f path last).map fun last => es.put k (.tables closed last)
    | some (.value _) => none

/-- Adds a table with a header of its own. -/
def addTable (key : String) (assignments : List Assignment) (es : Entries) : Option Entries :=
  match es.lookup key with
  | none => (assignAll [] assignments).map fun sub => es ++ [(key, .table .header sub)]
  | some (.table .implied sub) =>
    (assignAll sub assignments).map fun sub => es.remove key ++ [(key, .table .header sub)]
  | some _ => none

/-- Adds a table to an array of tables. -/
def addArrayItem (key : String) (assignments : List Assignment) (es : Entries) : Option Entries :=
  match es.lookup key with
  | none => (assignAll [] assignments).map fun sub => es ++ [(key, .tables [] sub)]
  | some (.tables closed last) =>
    (assignAll [] assignments).map fun sub =>
      es.put key (.tables (closed ++ [.object (membersOf last)]) sub)
  | some _ => none

/-- Adds a section. -/
def addSection (es : Entries) (s : Section) : Option Entries :=
  match s.header with
  | .table path => change (addTable path.key s.assignments) path.parents es
  | .arrayItem path => change (addArrayItem path.key s.assignments) path.parents es

end Entries

/-- The object that an inline table stands for. -/
def inlineObject? (assignments : List Assignment) : Option Json :=
  (Entries.assignAll [] assignments).map fun es => .object (membersOf es)

/-- The members of the object that a document stands for. -/
def Document.members? (d : Document) : Option Members := do
  let root ← Entries.assignAll [] d.assignments
  let root ← d.sections.foldlM Entries.addSection root
  some (membersOf root)

end ExtensionKit.Toml
