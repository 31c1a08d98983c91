import ExtensionKit.Calendar.Reading
import ExtensionKit.Typing.CoercionError
import ExtensionKit.Typing.FieldType

/-!
# Coercions

The routines that take loosely typed values to typed ones. Each has a representation as its target.
Absence is taken kindly: null is the zero of every target but dates, and so is blank text where the
target is not text.

`Coercion.resolve` is the table from declared types to routines. Dates are plain text in records and
have structure only as arguments; `any` is an object in records and any value as an argument.
-/

namespace ExtensionKit

namespace Json

open CoercionError

/-- Takes every value to text; numbers, arrays and objects become their JSON text. -/
def toText : Json → String
  | .null => ""
  | .string s => s
  | j => j.text

/-- Checks that a number is finite. -/
def requireFinite (raw : Json) (x : Binary64) : Except CoercionError Binary64 :=
  if x.isFinite then .ok x else refuseFor .notFinite raw .float64

/-- Takes numbers, booleans and numerals to binary numbers. -/
def toFloat64 (raw : Json) : Except CoercionError Binary64 :=
  match raw with
  | .null => .ok .zero
  | .bool b => .ok (.ofInt (if b then 1 else 0))
  | .number n => requireFinite raw n.toBinary64
  | .string s =>
    match Text.trim s.toList with
    | [] => .ok .zero
    | cs =>
      match Binary64.ofText? cs with
      | some x => requireFinite raw x
      | none => refuseFor .notNumeral raw .float64
  | .array _ => refuse raw .float64
  | .object _ => refuse raw .float64

/-- The integer part of a number of magnitude at most `2 ^ 63`, and the greatest integer of 64 bits for
`2 ^ 63` itself. -/
def truncated? : Binary64 → Option Int64
  | .finite x =>
    if x.units ≤ 0x8000000000000000 * Finite.unitsPerOne then
      some (.ofInt (min x.truncate 0x7FFFFFFFFFFFFFFF))
    else none
  | _ => none

/-- Takes numbers, booleans and numerals to integers. A numeral that is no integer is read as a binary
number and truncated; if that fails too the reason is that it is no integer. -/
def toInt64 (raw : Json) : Except CoercionError Int64 :=
  match raw with
  | .null => .ok 0
  | .bool b => .ok (if b then 1 else 0)
  | .number (.integer i _) =>
    if i < 0x8000000000000000 then .ok (.ofInt i) else refuseFor (.notInteger .tooLarge) raw .int64
  | .number (.float x) =>
    match truncated? (.finite x) with
    | some i => .ok i
    | none => refuse raw .int64
  | .string s =>
    match Text.trim s.toList with
    | [] => .ok 0
    | cs =>
      match integerOfText? cs with
      | .ok i => .ok i
      | .error fault =>
        match (Binary64.ofText? cs).bind truncated? with
        | some i => .ok i
        | none => refuseFor (.notInteger fault) raw .int64
  | .array _ => refuse raw .int64
  | .object _ => refuse raw .int64

/-- The texts that mean true. -/
def trueTexts : List String := ["1", "t", "T", "TRUE", "true", "True"]

/-- The texts that mean false. -/
def falseTexts : List String := ["", "0", "f", "F", "FALSE", "false", "False"]

/-- Takes booleans, numbers and a few texts to booleans; a number is true unless it is zero. -/
def toBool (raw : Json) : Except CoercionError Bool :=
  match raw with
  | .null => .ok false
  | .bool b => .ok b
  | .number n => .ok !(n.toBinary64.sameNumber .zero)
  | .string s =>
    let text := Text.trimmed s
    if text ∈ trueTexts then .ok true
    else if text ∈ falseTexts then .ok false
    else refuseFor .notBoolean raw .bool
  | .array _ => refuse raw .bool
  | .object _ => refuse raw .bool

/-- Takes objects and their JSON text to objects. -/
def toObject (raw : Json) : Except CoercionError Members :=
  match raw with
  | .null => .ok []
  | .object members => .ok members
  | .string s =>
    match Text.trim s.toList with
    | [] => .ok []
    | _ =>
      match Json.readObject s.toList with
      | .ok members => .ok members
      | .error fault => refuseFor (.notObject fault) raw .object
  | .bool _ => refuse raw .object
  | .number _ => refuse raw .object
  | .array _ => refuse raw .object

/-- Takes texts and seconds since the epoch to dates. -/
def toDateTime (raw : Json) : Except CoercionError DateTime :=
  match raw with
  | .string s =>
    match DateTime.ofText? (Text.trim s.toList) with
    | some t => .ok t
    | none => refuseFor .notDate raw .datetime
  | .number (.integer n _) =>
    match DateTime.ofUnixSeconds? n with
    | some t => .ok t
    | none => refuse raw .datetime
  | .number (.float _) => refuse raw .datetime
  | .null => refuse raw .datetime
  | .bool _ => refuse raw .datetime
  | .array _ => refuse raw .datetime
  | .object _ => refuse raw .datetime

end Json

/-! ## The table -/

/-- A coercion routine. -/
inductive Coercion where
  | toString
  | toFloat64
  | toInt64
  | toBool
  | toObject
  | toDateTime
  | passthrough
deriving DecidableEq, Repr

namespace Coercion

/-- All routines. -/
def all : List Coercion :=
  [.toString, .toFloat64, .toInt64, .toBool, .toObject, .toDateTime, .passthrough]

/-- The name of a routine in generated source. -/
def name : Coercion → String
  | .toString => "to_string"
  | .toFloat64 => "to_float64"
  | .toInt64 => "to_int64"
  | .toBool => "to_bool"
  | .toObject => "to_object"
  | .toDateTime => "to_datetime"
  | .passthrough => "passthrough"

/-- The representation that a routine produces. -/
def target : Coercion → Representation
  | .toString => .string
  | .toFloat64 => .float64
  | .toInt64 => .int64
  | .toBool => .bool
  | .toObject => .object
  | .toDateTime => .datetime
  | .passthrough => .any

/-- Runs a routine. -/
def apply : Coercion → Json → Except CoercionError Value
  | .toString, raw => .ok (.string raw.toText)
  | .toFloat64, raw => raw.toFloat64.map .float64
  | .toInt64, raw => raw.toInt64.map .int64
  | .toBool, raw => raw.toBool.map .bool
  | .toObject, raw => raw.toObject.map .object
  | .toDateTime, raw => raw.toDateTime.map .datetime
  | .passthrough, raw => .ok (.any raw)

/-- The routine of a declared type. -/
def resolve : FieldType → Usage → Coercion
  | .string, _ => .toString
  | .number, _ => .toFloat64
  | .boolean, _ => .toBool
  | .int, _ => .toInt64
  | .datetime, .field => .toString
  | .datetime, .argument => .toDateTime
  | .object, _ => .toObject
  | .any, .field => .toObject
  | .any, .argument => .passthrough

end Coercion

namespace FieldType

/-- The routine for fields of the type. -/
def fieldCoercion (t : FieldType) : Coercion := .resolve t .field

/-- The routine for arguments of the type. -/
def argumentCoercion (t : FieldType) : Coercion := .resolve t .argument

/-- The stand-in for the result of a function that declares the type. -/
def placeholder : FieldType → Value
  | .string => .string "function result"
  | .int => .int64 42
  | .number => .float64 (.ofDecimal false 314 (-2))
  | .boolean => .bool true
  | .object => .object []
  | .datetime => .datetime .epoch
  | .any => .any (.string "default result")

/-- The stand-in has the representation that the type has as an argument. -/
@[simp] theorem representation_placeholder (t : FieldType) :
    t.placeholder.representation = t.argumentCoercion.target := by cases t <;> rfl

end FieldType

end ExtensionKit
