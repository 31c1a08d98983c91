import ExtensionKit.Event
import ExtensionKit.Record.Schema

/-!
# Reading declarations

Declarations come as loosely typed values, from JSON or from a manifest. A declared structure is given
as an object, or as an array of its fields in order. An object is read member by member in the order in
which they stand; unknown keys are passed over; at the end the first required key that was not there is
reported. Type names that are not known are reported as events, and reading goes on.

A `Shape` describes a structure: its name, and for each key whether it is required and how its value
goes into the structure.
-/

namespace ExtensionKit

/-- Why a declaration could not be read. -/
inductive DeclarationError where
  /-- a required key is missing -/
  | missing (key : String)
  /-- a value is of the wrong kind -/
  | wrongKind (found : Json) (expected : String)
  /-- an array has too few elements for a structure -/
  | tooShort (length : Nat) (name : String) (fields : Nat)
  /-- an array has too many elements for a structure -/
  | tooLong (length : Nat)
  /-- a list of fields is no schema -/
  | schema (source : SchemaError)

/-- The wording of an error. -/
def DeclarationError.message : DeclarationError → String
  | .missing key => "missing field `" ++ key ++ "`"
  | .wrongKind found expected => "invalid type: " ++ found.describe ++ ", expected " ++ expected
  | .tooShort length name fields =>
    "invalid length " ++ String.ofList (Text.decimal length) ++ ", expected struct " ++ name ++
      " with " ++ String.ofList (Text.decimal fields) ++ " elements"
  | .tooLong length =>
    "invalid length " ++ String.ofList (Text.decimal length) ++
      ", expected fewer elements in array"
  | .schema source => source.message

/-- Reading a declaration: events and a result or an error. -/
abbrev Declared (α : Type) := ExceptT DeclarationError Logged α

/-- Whether arrays may have more elements than the structure that they stand for. -/
inductive Surplus where
  | refused
  | ignored
deriving DecidableEq, Repr

namespace Declared

/-- Fails. -/
def fail (e : DeclarationError) : Declared α := throw e

/-- Reports an event. -/
def report (e : Event) : Declared Unit := (Logged.report e : Logged Unit)

/-- Reads a string. -/
def string : Json → Declared String
  | .string s => pure s
  | found => fail (.wrongKind found "a string")

/-- Reads a boolean. -/
def bool : Json → Declared Bool
  | .bool b => pure b
  | found => fail (.wrongKind found "a boolean")

/-- Reads the items of an array one after another. -/
def items (item : Json → Declared α) : List Json → Declared (List α)
  | [] => pure []
  | j :: rest => do
    let a ← item j
    let as ← items item rest
    return a :: as

/-- Reads an array. -/
def list (item : Json → Declared α) : Json → Declared (List α)
  | .array js => items item js
  | found => fail (.wrongKind found "a sequence")

/-- The event that reports a type name that is not known. -/
def unknownType (name : String) : Event :=
  ⟨.debug, "Unsupported field type, using fallback", [("declared", Text.trimmed name)]⟩

/-- Takes a type name, and reports it if it is not known. -/
def typeOfName (name : String) : Declared FieldType :=
  match FieldType.ofExactName? (Text.trimmed name) with
  | some t => pure t
  | none => do
    report (unknownType name)
    return .any

/-- Reads a type. -/
def type (j : Json) : Declared FieldType := do typeOfName (← string j)

end Declared

/-- How one key of a structure is read. -/
structure Shape.Entry (α : Type) where
  /-- the key -/
  key : String
  /-- whether it must be there -/
  required : Bool
  /-- puts the value into the structure -/
  put : Json → α → Declared α

/-- How a structure is read. -/
structure Shape (α : Type) where
  /-- the name of the structure in messages -/
  name : String
  /-- the structure before any key is read -/
  start : α
  /-- the keys in order -/
  entries : List (Shape.Entry α)

namespace Shape

/-- Puts the members of an object into a structure one after another. -/
def putMembers (shape : Shape α) : Members → α → Declared α
  | [], a => pure a
  | (key, value) :: rest, a =>
    match shape.entries.find? fun e => e.key == key with
    | some entry => do putMembers shape rest (← entry.put value a)
    | none => putMembers shape rest a

/-- Puts the elements of an array into a structure by position. -/
def putElements : List (Entry α) → List Json → α → Declared α
  | entry :: entries, j :: js, a => do putElements entries js (← entry.put j a)
  | _, _, a => pure a

/-- The position of the first required entry from a position on. -/
def firstRequired? (shape : Shape α) (start : Nat) : Option Nat :=
  ((shape.entries.drop start).findIdx? Entry.required).map (start + ·)

/-- Reads a structure. -/
def read (surplus : Surplus) (shape : Shape α) : Json → Declared α
  | .object members => do
    let a ← shape.putMembers members shape.start
    match shape.entries.find? fun e => e.required && (Members.get? members e.key).isNone with
    | some entry => .fail (.missing entry.key)
    | none => return a
  | .array js => do
    let a ← putElements shape.entries js shape.start
    match shape.firstRequired? js.length with
    | some index => .fail (.tooShort index shape.name shape.entries.length)
    | none =>
      if surplus = .refused ∧ shape.entries.length < js.length then .fail (.tooLong js.length)
      else return a
  | found => .fail (.wrongKind found ("struct " ++ shape.name))

end Shape

end ExtensionKit
