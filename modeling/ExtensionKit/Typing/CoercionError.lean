import ExtensionKit.Binary64.Reading
import ExtensionKit.Json.Object
import ExtensionKit.Typing.Value

/-!
# Failures of coercions

A coercion that fails says which value it could not take, what the value should have become and, where
that helps, why.
-/

namespace ExtensionKit

/-- Why a value could not be coerced. -/
inductive CoercionError.Reason where
  | notFinite
  | notNumeral
  | notInteger (fault : IntegerFault)
  | notBoolean
  | notDate
  | notObject (fault : Json.Fault)

/-- The wording of a reason. -/
def CoercionError.Reason.message : CoercionError.Reason → String
  | .notFinite => "number is not finite"
  | .notNumeral => "invalid float literal"
  | .notInteger .invalidDigit => "invalid digit found in string"
  | .notInteger .tooLarge => "number too large to fit in target type"
  | .notInteger .tooSmall => "number too small to fit in target type"
  | .notBoolean => "not a boolean literal"
  | .notDate => "unrecognized datetime format"
  | .notObject fault => fault.message

/-- A value that could not be coerced. -/
structure CoercionError where
  /-- the value -/
  value : Json
  /-- what it should have become -/
  target : Representation
  /-- why it could not -/
  reason : Option CoercionError.Reason

/-- The wording of an error. -/
def CoercionError.message (e : CoercionError) : String :=
  "unable to coerce " ++ e.value.text ++ " to " ++ e.target.name ++
    (match e.reason with
      | some reason => ": " ++ reason.message
      | none => "")

namespace CoercionError

/-- Fails without giving a reason. -/
def refuse (value : Json) (target : Representation) : Except CoercionError α := .error ⟨value, target, none⟩

/-- Fails for a reason. -/
def refuseFor (reason : Reason) (value : Json) (target : Representation) : Except CoercionError α :=
  .error ⟨value, target, some reason⟩

end CoercionError

end ExtensionKit
