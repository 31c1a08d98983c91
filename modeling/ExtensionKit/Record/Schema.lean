import ExtensionKit.Identifier
import ExtensionKit.Typing.Coercion

/-!
# Schemas

A schema is an ordered list of declared fields whose exported identifiers are distinct, and hence
whose names are. `Schema.ofFields` checks this from the first field on and reports the first one that
clashes with an earlier one: as a duplicate if the names are equal, else as a collision of identifiers.
-/

namespace ExtensionKit

/-- A declared field of a record, or argument of a function. -/
structure Field where
  /-- the declared name -/
  name : String
  /-- the declared type -/
  type : FieldType
deriving DecidableEq, Repr, Inhabited

namespace Field

/-- The identifier of the field in generated source. -/
def ident (f : Field) : String := Identifier.exported f.name

/-- The routine that takes values into the field. -/
def coercion (f : Field) : Coercion := f.type.fieldCoercion

/-- The representation of the values that the field holds. -/
def representation (f : Field) : Representation := f.coercion.target

/-- The value of an unset field. -/
def zero (f : Field) : Value := f.representation.zero

/-- Every field must be declared in full: none is optional. -/
def required (_ : Field) : Bool := true

end Field

/-- Why a list of fields is no schema. -/
inductive SchemaError where
  /-- a field has the name of an earlier one -/
  | duplicate (name : String) (index : Nat)
  /-- a field has the identifier of an earlier one of another name -/
  | collision (name other ident : String)
deriving DecidableEq, Repr

/-- The wording of an error. -/
def SchemaError.message : SchemaError → String
  | .duplicate name index =>
    "duplicate field name '" ++ name ++ "' at position " ++ String.ofList (Text.decimal index)
  | .collision name other ident =>
    "field names '" ++ other ++ "' and '" ++ name ++ "' both map to identifier " ++ ident

/-- An ordered list of fields with distinct identifiers. -/
structure Schema where
  /-- the fields in order -/
  fields : List Field
  /-- no two fields have the same identifier -/
  distinct : (fields.map Field.ident).Nodup

namespace Schema

/-- The first clash among fields, given the fields before them. -/
def firstClash? (earlier : List Field) : List Field → Option SchemaError
  | [] => none
  | f :: rest =>
    if earlier.any fun e => e.name == f.name then some (.duplicate f.name earlier.length)
    else match earlier.find? fun e => e.ident == f.ident with
      | some e => some (.collision f.name e.name f.ident)
      | none => firstClash? (earlier ++ [f]) rest

/-- Without a clash the identifiers of all fields are distinct. -/
theorem nodup_of_firstClash?_eq_none {earlier rest : List Field}
    (h : firstClash? earlier rest = none) (distinct : (earlier.map Field.ident).Nodup) :
    ((earlier ++ rest).map Field.ident).Nodup := by
  induction rest generalizing earlier with
  | nil => simpa using distinct
  | cons f rest ih =>
    rw [firstClash?] at h
    split at h
    · cases h
    · split at h
      · cases h
      · next hfind =>
        have fresh : f.ident ∉ earlier.map Field.ident := by
          intro hmem
          obtain ⟨e, he, heq⟩ := List.mem_map.1 hmem
          have := List.find?_eq_none.1 hfind e he
          simp [heq] at this
        have := ih h (by
          rw [List.map_append, List.nodup_append]
          refine ⟨distinct, by simp, ?_⟩
          intro a ha b hb
          simp only [List.map_cons, List.map_nil, List.mem_singleton] at hb
          rintro rfl
          exact fresh (hb ▸ ha))
        simpa using this

/-- The schema of a list of fields, if no two of them clash. -/
def ofFields (fields : List Field) : Except SchemaError Schema :=
  match h : firstClash? [] fields with
  | some e => .error e
  | none => .ok ⟨fields, by simpa using nodup_of_firstClash?_eq_none h (by simp)⟩

/-- A schema keeps the fields that it is made of. -/
theorem fields_of_ofFields {fields : List Field} {s : Schema} (h : ofFields fields = .ok s) :
    s.fields = fields := by
  rw [ofFields] at h
  split at h
  · cases h
  · obtain rfl := Except.ok.inj h
    rfl

/-- The schema without fields. -/
def empty : Schema := ⟨[], by simp⟩

/-- The number of fields. -/
def size (s : Schema) : Nat := s.fields.length

instance : DecidableEq Schema := fun s t =>
  decidable_of_iff (s.fields = t.fields) (by cases s; cases t; simp)

instance : Inhabited Schema := ⟨empty⟩

end Schema

end ExtensionKit
