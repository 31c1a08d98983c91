import ExtensionKit.Json.Reader
import ExtensionKit.Json.Text
import ExtensionKit.Text.Literal

/-!
# Reading objects

A text that must be an object is refused for one of two reasons: it is no JSON text, or it is the
text of something else. `Json.describe` says what that is; of an array only the opening bracket is
looked at.
-/

namespace ExtensionKit.Json

/-- What a value is, in the words of an error message. -/
def describe : Json → String
  | .null => "null"
  | .bool true => "boolean `true`"
  | .bool false => "boolean `false`"
  | .number (.integer i _) => "integer `" ++ String.ofList (Text.signedDecimal i) ++ "`"
  | .number (.float x) => "floating point `" ++ String.ofList x.text ++ "`"
  | .string s => "string " ++ Text.Literal.quote s
  | .array _ => "sequence"
  | .object _ => "map"

/-- Why a text is not an object, and where. -/
inductive Fault where
  | unreadable (cause : Cause) (position : Position)
  | notObject (found : Json) (position : Position)

/-- A place in the words of an error message. -/
def Position.message (p : Position) : String :=
  " at line " ++ String.ofList (Text.decimal p.line) ++ " column " ++
    String.ofList (Text.decimal p.column)

/-- The wording of a fault. -/
def Fault.message : Fault → String
  | .unreadable cause position => cause.message ++ position.message
  | .notObject found position =>
    "invalid type: " ++ found.describe ++ ", expected a map" ++ position.message

/-- The place before the rest of a text. -/
def positionBefore (rest text : List Char) : Position := Failure.position ⟨.endInValue, rest, 0⟩ text

/-- The fault of a failure in a text. -/
def Failure.toFault (f : Failure) (text : List Char) : Fault :=
  .unreadable f.cause (f.position text)

/-- Reads a text that is one object with white space around it. -/
def readObject (text : List Char) : Except Fault Members :=
  match skipSpace text with
  | '{' :: _ =>
    match read text with
    | .ok (.object members) => .ok members
    | .ok other => .error (.notObject other (positionBefore [] text))
    | .error f => .error (f.toFault text)
  | '[' :: rest => .error (.notObject (.array []) (positionBefore ('[' :: rest) text))
  | start =>
    match readValue 0 start with
    | .ok (found, rest) => .error (.notObject found (positionBefore rest text))
    | .error f => .error (f.toFault text)

end ExtensionKit.Json
