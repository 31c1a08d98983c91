import ExtensionKit.Record.Error
import ExtensionKit.Record.Schema

/-!
# Signatures

The arguments of a function, which must be a schema, and its declared result. Arguments are passed by
position. `Signature.coerce` first compares their number with the arity and then takes them one after
another, up to the first that cannot be coerced.
-/

namespace ExtensionKit

/-- The signature of a function. -/
structure Signature where
  /-- the declared arguments -/
  parameters : Schema
  /-- the declared type of the result -/
  result : FieldType

namespace Signature

/-- The signature of a list of declared arguments and a result. -/
def compile (arguments : List Field) (result : FieldType) : Except SchemaError Signature :=
  (Schema.ofFields arguments).map fun parameters => ⟨parameters, result⟩

/-- A signature has the arguments that it is compiled from. -/
theorem fields_of_compile {arguments : List Field} {result : FieldType} {s : Signature}
    (h : compile arguments result = .ok s) : s.parameters.fields = arguments := by
  rw [compile] at h
  rcases hschema : Schema.ofFields arguments with e | parameters
  · rw [hschema] at h
    cases h
  · rw [hschema] at h
    obtain rfl := Except.ok.inj h
    exact Schema.fields_of_ofFields hschema

/-- The number of arguments. -/
def arity (s : Signature) : Nat := s.parameters.size

/-- The representations of the arguments, by position. -/
def representations (s : Signature) : List Representation :=
  s.parameters.fields.map fun f => f.type.argumentCoercion.target

/-- No function takes more arguments than it declares. -/
def isVariadic (_ : Signature) : Bool := false

/-- Coerces arguments by position; the index is that of the first. -/
def coerceFrom : (index : Nat) → List Field → List Json → Except RecordError (List Value)
  | index, f :: fields, raw :: params =>
    match f.type.argumentCoercion.apply raw with
    | .error e => .error (.argument index f.name e)
    | .ok value =>
      match coerceFrom (index + 1) fields params with
      | .error e => .error e
      | .ok values => .ok (value :: values)
  | _, _, _ => .ok []

/-- Coerces a list of arguments. -/
def coerce (s : Signature) (params : List Json) : Except RecordError (List Value) :=
  if params.length ≠ s.arity then .error (.arity s.arity params.length)
  else coerceFrom 0 s.parameters.fields params

/-- A stand-in for the result. -/
def placeholder (s : Signature) : Value := s.result.placeholder

end Signature

end ExtensionKit
