import ExtensionKit.Binary64.Nearest

/-!
# Loosely typed values

The values that hosts pass around: null, booleans, numbers, strings, arrays and objects. A number is
an integer between `-2 ^ 63` and `2 ^ 64`, or a finite binary number; the two kinds never meet, so
`1` and `1.0` are different numbers. The members of an object keep their order.
-/

namespace ExtensionKit

/-- A number as written: exact if it is an integer of 64 bits with or without a sign. -/
inductive Number where
  | integer (value : Int) (bounded : -0x8000000000000000 ≤ value ∧ value < 0x10000000000000000)
  | float (value : Finite)
deriving DecidableEq, Repr

namespace Number

/-- An integer of 64 bits with a sign. -/
def ofInt64 (i : Int64) : Number :=
  .integer i.toInt (by have := i.le_toInt; have := i.toInt_lt; omega)

/-- The nearest binary number. -/
def toBinary64 : Number → Binary64
  | .integer i _ => .ofInt i
  | .float x => .finite x

/-- Equality of numbers of one kind; the two zeros are equal. -/
def same : Number → Number → Bool
  | .integer i _, .integer j _ => i == j
  | .float x, .float y => x.sameNumber y
  | _, _ => false

end Number

/-- A loosely typed value. -/
inductive Json where
  | null
  | bool (value : Bool)
  | number (value : Number)
  | string (value : String)
  | array (items : List Json)
  | object (members : List (String × Json))
deriving Inhabited, Repr

/-- The members of an object in order. -/
abbrev Members := List (String × Json)

namespace Members

/-- The value of the first member with a key. -/
def get? (ms : Members) (key : String) : Option Json := ms.lookup key

/-- The keys in order. -/
def keys (ms : Members) : List String := ms.map Prod.fst

/-- Sets the value of a key: where the key stands already, else at the end. -/
def insert : Members → String → Json → Members
  | [], key, value => [(key, value)]
  | (k, v) :: rest, key, value =>
    if k = key then (k, value) :: rest else (k, v) :: insert rest key value

end Members

mutual

/-- Equality of values: numbers by value within their kind, objects without regard to order. -/
def Json.same : Json → Json → Bool
  | .null, .null => true
  | .bool a, .bool b => a == b
  | .number a, .number b => a.same b
  | .string a, .string b => a == b
  | .array as, .array bs => Json.sameItems as bs
  | .object ms, .object ns => ms.length == ns.length && Json.sameMembers ms ns
  | _, _ => false

/-- Equality of arrays, position by position. -/
def Json.sameItems : List Json → List Json → Bool
  | [], [] => true
  | a :: as, b :: bs => Json.same a b && Json.sameItems as bs
  | _, _ => false

/-- Whether every member of the first object has an equal one in the second. -/
def Json.sameMembers : List (String × Json) → List (String × Json) → Bool
  | [], _ => true
  | (key, a) :: rest, ns =>
    (match ns.lookup key with
      | some b => Json.same a b
      | none => false) && Json.sameMembers rest ns

end

namespace Json

/-- An integer of 64 bits. -/
def ofInt64 (i : Int64) : Json := .number (.ofInt64 i)

/-- A binary number; infinities and `nan` have no numeral and become null. -/
def ofBinary64 : Binary64 → Json
  | .finite x => .number (.float x)
  | _ => .null

end Json

end ExtensionKit
