import ExtensionKit.Generated.Vocabulary
import ExtensionKit.Record.Basic

/-!
# The source of a record type

A structure with a member for each field, a method that projects it to a map, and a method that fills it
from one. The three parts go through the fields in order: `memberLines` declares a field, `insertLine`
writes it to the map, and `fillLines` reads it, with the coercion routine of its type. Map keys are
literals of the declared names; members are named by the identifiers.
-/

namespace ExtensionKit.Generated

/-- The declaration of a member. -/
def memberLines (f : Field) : List String :=
  ["    /// `" ++ f.name ++ "` (" ++ f.type.name ++ ")",
    "    pub " ++ f.ident ++ ": " ++ f.representation.sourceType ++ ","]

/-- The statement that writes a member to the map. -/
def insertLine (f : Field) : String :=
  "        map.insert(" ++ Text.Literal.quote f.name ++ ".to_string(), serde_json::json!(self." ++
    f.ident ++ "));"

/-- The statements that read a member from the map. -/
def fillLines (index : Nat) (f : Field) : List String :=
  ["        // " ++ f.name ++ " " ++ f.type.name,
    "        let raw = values.get(" ++ Text.Literal.quote f.name ++ ").unwrap_or(&null);",
    "        let typed = flowgen_core::coerce::" ++ f.coercion.name ++ "(raw).map_err(|source| \x7b",
    "            flowgen_core::ContractError::FieldCoercion \x7b index: " ++ positionText index ++
      ", field: " ++ Text.Literal.quote f.name ++ ".into(), source \x7d",
    "        \x7d)?;",
    "        if let flowgen_core::TypedValue::" ++ f.representation.variant ++ "(v) = typed \x7b",
    "            self." ++ f.ident ++ " = v;",
    "        \x7d"]

/-- The statements that read all members, the first with the given index. -/
def fillAllLines : (index : Nat) → List Field → List String
  | _, [] => []
  | index, f :: rest => fillLines index f ++ fillAllLines (index + 1) rest

/-- The declaration of the structure. -/
def structureLines (typeName : String) (fields : List Field) : List String :=
  ["#[allow(non_snake_case)]",
    "#[derive(Debug, Clone, Default, PartialEq)]",
    "pub struct " ++ typeName ++ " \x7b"] ++
  fields.flatMap memberLines ++
  ["\x7d"]

/-- The method that projects to a map. -/
def toMapLines (fields : List Field) : List String :=
  ["    pub fn to_map(&self) -> serde_json::Map<String, serde_json::Value> \x7b",
    "        let mut map = serde_json::Map::new();"] ++
  fields.map insertLine ++
  ["        map",
    "    \x7d"]

/-- The method that fills from a map. -/
def fromMapLines (fields : List Field) : List String :=
  ["    pub fn from_map(",
    "        &mut self,",
    "        values: &serde_json::Map<String, serde_json::Value>,",
    "    ) -> Result<(), flowgen_core::ContractError> \x7b"] ++
  (if fields = [] then [] else ["        let null = serde_json::Value::Null;"]) ++
  fillAllLines 0 fields ++
  ["        Ok(())",
    "    \x7d"]

/-- The lines of a record type. -/
def recordLines (typeName : String) (c : Contract) : List String :=
  structureLines typeName c.fields ++ ["", "impl " ++ typeName ++ " \x7b"] ++
    toMapLines c.fields ++ [""] ++ fromMapLines c.fields ++ ["\x7d"]

/-- The source of a record type under a given name. -/
def recordSource (typeName : String) (c : Contract) : String := textOfLines (recordLines typeName c)

/-- The name that a record type has by itself. -/
def recordTypeName (c : Contract) : String := Identifier.exported c.name

end ExtensionKit.Generated
