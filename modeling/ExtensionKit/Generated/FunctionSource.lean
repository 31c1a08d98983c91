import ExtensionKit.Generated.Vocabulary
import ExtensionKit.Signature

/-!
# The source of a function

A skeleton for authors: methods for the name, the category and the signature, and an evaluation that
compares the number of arguments with the arity, takes each argument into a variable of its type, and
returns a stand-in for the result.
-/

namespace ExtensionKit.Generated

/-- A method that returns a literal of a declared text. -/
def literalMethodLines (method text : String) : List String :=
  ["    pub fn " ++ method ++ "(&self) -> &'static str \x7b",
    "        " ++ Text.Literal.quote text,
    "    \x7d",
    ""]

/-- The method for the signature. -/
def signatureLines (s : Signature) : List String :=
  let types := s.representations.map fun r => "flowgen_core::RepresentationType::" ++ r.variant
  ["    pub fn sig(&self) -> (Vec<flowgen_core::RepresentationType>, bool) \x7b",
    "        (vec![" ++ ", ".intercalate types ++ "], false)",
    "    \x7d",
    ""]

/-- The start of the evaluation, up to the comparison with the arity. -/
def prologueLines (name : String) (arity : Nat) : List String :=
  ["    pub fn eval(",
    "        &self,",
    "        params: &[serde_json::Value],",
    "    ) -> Result<flowgen_core::TypedValue, flowgen_core::ContractError> \x7b",
    "        tracing::debug!(\"Start of function " ++ name ++ "\");",
    "",
    "        if params.len() != " ++ positionText arity ++ " \x7b",
    "            return Err(flowgen_core::ContractError::ArityMismatch \x7b",
    "                expected: " ++ positionText arity ++ ",",
    "                actual: params.len(),",
    "            \x7d);",
    "        \x7d"]

/-- The statements that take an argument into its variable. An argument of any type is copied. -/
def argumentLines (index : Nat) (f : Field) : List String :=
  let coercion := f.type.argumentCoercion
  let ident := Identifier.argument f.name
  let position := positionText index
  if coercion.target = .any then
    ["",
      "        let " ++ ident ++ " = params[" ++ position ++ "].clone(); // any type"]
  else
    let variant := coercion.target.variant
    ["",
      "        // Coerce parameter " ++ position ++ " (" ++ f.name ++ ") to " ++ f.type.name,
      "        let " ++ ident ++ ": " ++ coercion.target.sourceType ++
        " = match flowgen_core::coerce::" ++ coercion.name ++ "(&params[" ++ position ++
        "]).map_err(|source| \x7b",
      "            flowgen_core::ContractError::ArgumentCoercion \x7b index: " ++ position ++
        ", argument: " ++ Text.Literal.quote f.name ++ ".into(), source \x7d",
      "        \x7d)? \x7b",
      "            flowgen_core::TypedValue::" ++ variant ++ "(v) => v,",
      "            other => \x7b",
      "                return Err(flowgen_core::ContractError::TypeMismatch \x7b",
      "                    field: " ++ Text.Literal.quote f.name ++ ".into(),",
      "                    expected: flowgen_core::RepresentationType::" ++ variant ++ ",",
      "                    actual: other.representation(),",
      "                \x7d);",
      "            \x7d",
      "        \x7d;"]

/-- The statements that take all arguments, the first with the given index. -/
def argumentsLines : (index : Nat) → List Field → List String
  | _, [] => []
  | index, f :: rest => argumentLines index f ++ argumentsLines (index + 1) rest

/-- The variables of the arguments. -/
def argumentVariables (s : Signature) : List String :=
  s.parameters.fields.map fun f => Identifier.argument f.name

/-- The statement that uses all variables, if there are any. -/
def useLines (idents : List String) : List String :=
  if idents = [] then [] else ["        let _ = (" ++ ", ".intercalate idents ++ ");"]

/-- The end of the evaluation. -/
def epilogueLines (result : FieldType) : List String :=
  ["",
    "        // Replace with the actual implementation.",
    "        Ok(" ++ result.placeholderSource ++ ")",
    "    \x7d",
    "\x7d"]

/-- The lines of a function. -/
def functionLines (name category : String) (s : Signature) : List String :=
  let typeName := Identifier.functionType name
  ["pub struct " ++ typeName ++ ";", "", "impl " ++ typeName ++ " \x7b"] ++
    literalMethodLines "name" name ++ literalMethodLines "category" category ++ signatureLines s ++
    prologueLines name s.arity ++ argumentsLines 0 s.parameters.fields ++
    useLines (argumentVariables s) ++ epilogueLines s.result

/-- The source of a function. -/
def functionSource (name category : String) (s : Signature) : String :=
  textOfLines (functionLines name category s)

end ExtensionKit.Generated
