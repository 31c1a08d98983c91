import ExtensionKit.Json.Basic
import ExtensionKit.Calendar.DateTime

/-!
# Typed values

The types in which values are held, and the values of each. Every type has a zero, which stands in
for an unset field, and every value has a projection to the loosely typed form that hosts see.
-/

namespace ExtensionKit

/-- The type that a value is held in. -/
inductive Representation where
  | string
  | float64
  | bool
  | int64
  | datetime
  | object
  | any
deriving DecidableEq, Repr

namespace Representation

/-- The name of a representation in messages. -/
def name : Representation → String
  | .string => "string"
  | .float64 => "float64"
  | .bool => "bool"
  | .int64 => "int64"
  | .datetime => "datetime"
  | .object => "object"
  | .any => "any"

/-- The name of a representation in data, with its words apart. -/
def key : Representation → String
  | .datetime => "date_time"
  | r => r.name

end Representation

/-- A value held in its representation. -/
inductive Value where
  | string (value : String)
  | float64 (value : Binary64)
  | bool (value : Bool)
  | int64 (value : Int64)
  | datetime (value : DateTime)
  | object (members : Members)
  | any (value : Json)

namespace Value

/-- The representation of a value. -/
def representation : Value → Representation
  | .string _ => .string
  | .float64 _ => .float64
  | .bool _ => .bool
  | .int64 _ => .int64
  | .datetime _ => .datetime
  | .object _ => .object
  | .any _ => .any

/-- The projection to the loosely typed form. A date becomes its text, and a number that is not finite
becomes null. -/
def toJson : Value → Json
  | .string s => .string s
  | .float64 x => .ofBinary64 x
  | .bool b => .bool b
  | .int64 i => .ofInt64 i
  | .datetime t => .string (String.ofList t.text)
  | .object members => .object members
  | .any j => j

/-- Equality of values: numbers by value, dates by the instant, objects without regard to order. -/
def same : Value → Value → Bool
  | .string s, .string t => s == t
  | .float64 x, .float64 y => x.sameNumber y
  | .bool a, .bool b => a == b
  | .int64 i, .int64 j => i == j
  | .datetime t, .datetime u => t.unixSeconds == u.unixSeconds && t.nanosecond == u.nanosecond &&
      (t.second == 60) == (u.second == 60)
  | .object ms, .object ns => (Json.object ms).same (.object ns)
  | .any a, .any b => a.same b
  | _, _ => false

end Value

/-- The zero of a representation. -/
def Representation.zero : Representation → Value
  | .string => .string ""
  | .float64 => .float64 .zero
  | .bool => .bool false
  | .int64 => .int64 0
  | .datetime => .datetime .epoch
  | .object => .object []
  | .any => .any .null

/-- The zero of a representation has it. -/
@[simp] theorem Representation.representation_zero (r : Representation) :
    r.zero.representation = r := by cases r <;> rfl

end ExtensionKit
