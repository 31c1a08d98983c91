import ExtensionKit.Text.Blank

/-!
# Declared types

The types that declarations give to fields and arguments. The set is closed: a type name is trimmed
and looked up, and every name that is not found means `any`.
-/

namespace ExtensionKit

/-- A declared type. -/
inductive FieldType where
  | string
  | number
  | boolean
  | int
  | datetime
  | object
  | any
deriving DecidableEq, Repr, Inhabited

namespace FieldType

/-- All declared types. -/
def all : List FieldType := [.string, .number, .boolean, .int, .datetime, .object, .any]

/-- The name of a type in declarations. -/
def name : FieldType → String
  | .string => "string"
  | .number => "number"
  | .boolean => "boolean"
  | .int => "int"
  | .datetime => "datetime"
  | .object => "object"
  | .any => "any"

/-- The type of exactly this name. -/
def ofExactName? (name : String) : Option FieldType := all.find? fun t => t.name == name

/-- The type of a declared name, without regard to white space around it; `any` if there is none. -/
def ofName (name : String) : FieldType := (ofExactName? (Text.trimmed name)).getD .any

end FieldType

/-- Where a declared type is used. -/
inductive Usage where
  /-- in a field of a record -/
  | field
  /-- in a positional argument of a function -/
  | argument
deriving DecidableEq, Repr

end ExtensionKit
