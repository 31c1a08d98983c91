import ExtensionKit.Record.Error
import ExtensionKit.Record.Schema

/-!
# Contracts and records

A contract is a record type: a name, a schema, and the stamp of its compilation, which tells apart
types compiled at different times from one declaration. A record has a slot for every field of its
contract, and a slot is set or unset.

A record is changed in two ways. `Record.set` assigns one field a value that must have the field's
representation already. `Record.fill` takes all fields, in order, from the members of an object, where a
missing key counts as null, and stops at the first value that cannot be coerced; the fields before it
keep their new values. `Record.toMembers` never fails: an unset field shows its zero.
-/

namespace ExtensionKit

/-- A record type. -/
structure Contract where
  /-- the name of the type -/
  name : String
  /-- its fields -/
  schema : Schema
  /-- the number of its compilation -/
  stamp : Nat
deriving DecidableEq

namespace Contract

/-- The record type of a schema. -/
def compile (name : String) (schema : Schema) (stamp : Nat := 0) : Contract := ⟨name, schema, stamp⟩

/-- The fields in order. -/
def fields (c : Contract) : List Field := c.schema.fields

/-- The field of a name. -/
def field? (c : Contract) (name : String) : Option Field := c.fields.find? fun f => f.name == name

/-- The number of fields. -/
def size (c : Contract) : Nat := c.fields.length

end Contract

/-- The place of one field in a record. -/
structure Slot where
  /-- the field -/
  field : Field
  /-- its value, if it is set -/
  value : Option Value

namespace Slot

/-- The value, or the zero of an unset field. -/
def shown (s : Slot) : Value := s.value.getD s.field.zero

/-- The member that the slot has in an object. -/
def member (s : Slot) : String × Json := (s.field.name, s.shown.toJson)

/-- The slot with another value. -/
def assign (s : Slot) (value : Value) : Slot := { s with value := some value }

/-- Fills slots in order from the members of an object, up to the first that cannot be. The index is
that of the first slot. -/
def fillAll (raw : Members) : (index : Nat) → List Slot → List Slot × Option RecordError
  | _, [] => ([], none)
  | index, s :: rest =>
    match s.field.coercion.apply ((raw.get? s.field.name).getD .null) with
    | .error e => (s :: rest, some (.field index s.field.name e))
    | .ok value =>
      let (filled, failure) := fillAll raw (index + 1) rest
      (s.assign value :: filled, failure)

/-- Filling leaves the fields in place. -/
theorem map_field_fillAll (raw : Members) (index : Nat) (slots : List Slot) :
    (fillAll raw index slots).1.map field = slots.map field := by
  induction slots generalizing index with
  | nil => rfl
  | cons s rest ih =>
    rw [fillAll]
    split
    · rfl
    · simp [assign, ih]

end Slot

/-- An instance of a record type. -/
structure Record where
  /-- the type -/
  contract : Contract
  /-- a slot for each field -/
  slots : List Slot
  /-- the slots are those of the fields, in order -/
  aligned : slots.map Slot.field = contract.fields

namespace Record

/-- The record with no field set. -/
def new (c : Contract) : Record :=
  ⟨c, c.fields.map fun f => ⟨f, none⟩, by
    rw [List.map_map]
    exact (List.map_congr_left fun _ _ => rfl).trans (List.map_id _)⟩

/-- The value of the field of a name, if there is one and it is set. -/
def get? (r : Record) (name : String) : Option Value :=
  (r.slots.find? fun s => s.field.name == name).bind Slot.value

/-- The value of the field of an identifier, if there is one and it is set. -/
def getByIdent? (r : Record) (ident : String) : Option Value :=
  (r.slots.find? fun s => s.field.ident == ident).bind Slot.value

/-- Whether the field of a name is set. -/
def isSet (r : Record) (name : String) : Bool := (r.get? name).isSome

/-- Whether every field is set. -/
def isComplete (r : Record) : Bool := r.slots.all fun s => s.value.isSome

/-- The names of the fields that are set. -/
def setNames (r : Record) : List String :=
  (r.slots.filter fun s => s.value.isSome).map fun s => s.field.name

/-- The projection to an object: every field under its declared name, in order. -/
def toMembers (r : Record) : Members := r.slots.map Slot.member

/-- The record with one field assigned, whatever the value. -/
def assign (r : Record) (name : String) (value : Value) : Record :=
  ⟨r.contract, r.slots.map fun s => if s.field.name = name then s.assign value else s, by
    rw [← r.aligned, List.map_map]
    apply List.map_congr_left
    intro s _
    simp only [Function.comp]
    split <;> rfl⟩

/-- A number that is not finite, if the value is one. -/
def notFinite? : Value → Option Binary64
  | .float64 x => if x.isFinite then none else some x
  | _ => none

/-- Assigns one field. The value must have the field's representation and be finite. -/
def set (r : Record) (name : String) (value : Value) : Except RecordError Record :=
  match r.contract.field? name with
  | none => .error (.unknownField r.contract.name name)
  | some f =>
    if value.representation ≠ f.representation then
      .error (.typeMismatch name f.representation value.representation)
    else match notFinite? value with
      | some x => .error (.notFinite name x)
      | none => .ok (r.assign name value)

/-- Fills all fields from the members of an object, up to the first that cannot be. -/
def fill (r : Record) (raw : Members) : Record × Option RecordError :=
  (⟨r.contract, (Slot.fillAll raw 0 r.slots).1, by rw [Slot.map_field_fillAll, r.aligned]⟩,
    (Slot.fillAll raw 0 r.slots).2)

/-- Whether two lists of slots hold the same values, position by position. -/
def sameValues : List Slot → List Slot → Bool
  | [], [] => true
  | s :: ss, t :: ts =>
    (match s.value, t.value with
      | none, none => true
      | some v, some w => v.same w
      | _, _ => false) && sameValues ss ts
  | _, _ => false

/-- Equality of records: they are of one type and hold the same values. -/
def same (r s : Record) : Bool := decide (r.contract = s.contract) && sameValues r.slots s.slots

/-- A record as text: its type and its projection. -/
def text (r : Record) : String := r.contract.name ++ " " ++ (Json.object r.toMembers).text

end Record

/-- The record of a contract that an object describes in full. -/
def Contract.ofMembers (c : Contract) (raw : Members) : Except RecordError Record :=
  match (Record.new c).fill raw with
  | (r, none) => .ok r
  | (_, some e) => .error e

end ExtensionKit
