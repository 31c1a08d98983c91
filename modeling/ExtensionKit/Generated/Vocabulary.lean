import ExtensionKit.Text.Literal
import ExtensionKit.Typing.Coercion

/-!
# Words of generated source

The generated source is Rust. Each representation has a type that holds it there and a variant of the
type of values, and each declared type has an expression for its stand-in result. Generated source is a
list of lines.
-/

namespace ExtensionKit

/-- The type that holds values of a representation. -/
def Representation.sourceType : Representation → String
  | .string => "String"
  | .float64 => "f64"
  | .bool => "bool"
  | .int64 => "i64"
  | .datetime => "chrono::DateTime<chrono::FixedOffset>"
  | .object => "serde_json::Map<String, serde_json::Value>"
  | .any => "serde_json::Value"

/-- The variant of the type of values that holds a representation. -/
def Representation.variant : Representation → String
  | .string => "String"
  | .float64 => "Float64"
  | .bool => "Bool"
  | .int64 => "Int64"
  | .datetime => "DateTime"
  | .object => "Object"
  | .any => "Any"

/-- The expression for the stand-in of a result. -/
def FieldType.placeholderSource : FieldType → String
  | .string => "flowgen_core::TypedValue::from(\"function result\")"
  | .int => "flowgen_core::TypedValue::Int64(42)"
  | .number => "flowgen_core::TypedValue::Float64(3.14)"
  | .boolean => "flowgen_core::TypedValue::Bool(true)"
  | .object => "flowgen_core::TypedValue::Object(serde_json::Map::new())"
  | .datetime => "flowgen_core::TypedValue::DateTime(flowgen_core::coerce::epoch())"
  | .any => "flowgen_core::TypedValue::Any(serde_json::Value::from(\"default result\"))"

namespace Generated

/-- The text of lines, each with a line feed at its end. -/
def textOfLines (lines : List String) : String := String.join (lines.map (· ++ "\n"))

@[simp] theorem textOfLines_nil : textOfLines [] = "" := rfl

@[simp] theorem textOfLines_cons (line : String) (lines : List String) :
    textOfLines (line :: lines) = line ++ ("\n" ++ textOfLines lines) := by
  rw [textOfLines, List.map_cons, String.join_cons, String.append_assoc]
  rfl

@[simp] theorem textOfLines_append (lines more : List String) :
    textOfLines (lines ++ more) = textOfLines lines ++ textOfLines more := by
  induction lines with
  | nil => rw [List.nil_append, textOfLines_nil, String.empty_append]
  | cons line lines ih =>
    rw [List.cons_append, textOfLines_cons, textOfLines_cons, ih, String.append_assoc, String.append_assoc]

/-- A position in decimal. -/
def positionText (n : Nat) : String := String.ofList (Text.decimal n)

end Generated

end ExtensionKit
