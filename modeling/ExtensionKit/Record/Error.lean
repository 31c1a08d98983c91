import ExtensionKit.Typing.CoercionError

/-!
# Failures of records and argument lists
-/

namespace ExtensionKit

/-- Why a record or an argument list could not be filled. -/
inductive RecordError where
  /-- the value of a field could not be coerced -/
  | field (index : Nat) (name : String) (source : CoercionError)
  /-- the number of arguments is wrong -/
  | arity (expected actual : Nat)
  /-- an argument could not be coerced -/
  | argument (index : Nat) (name : String) (source : CoercionError)
  /-- the record has no such field -/
  | unknownField (contract name : String)
  /-- the field holds values of another representation -/
  | typeMismatch (name : String) (expected actual : Representation)
  /-- the field cannot hold infinities and `nan` -/
  | notFinite (name : String) (value : Binary64)

/-- A number that is not finite, in words; a finite one has none. -/
def Binary64.specialName : Binary64 → String
  | .infinite false => "inf"
  | .infinite true => "-inf"
  | .nan => "NaN"
  | .finite _ => ""

/-- The wording of an error. -/
def RecordError.message : RecordError → String
  | .field index name source =>
    "unable to coerce field " ++ String.ofList (Text.decimal index) ++ " (" ++ name ++ "): " ++
      source.message
  | .arity expected actual =>
    "expected " ++ String.ofList (Text.decimal expected) ++ " parameters, got " ++
      String.ofList (Text.decimal actual)
  | .argument index name source =>
    "unable to coerce parameter " ++ String.ofList (Text.decimal index) ++ " (" ++ name ++ "): " ++
      source.message
  | .unknownField contract name => "contract " ++ contract ++ " has no field '" ++ name ++ "'"
  | .typeMismatch name expected actual =>
    "field " ++ name ++ " holds " ++ expected.name ++ ", not " ++ actual.name
  | .notFinite name value => "field " ++ name ++ " cannot hold non-finite number " ++ value.specialName

end ExtensionKit
