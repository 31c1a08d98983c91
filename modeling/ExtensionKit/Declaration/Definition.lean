import ExtensionKit.Declaration.Basic

/-!
# Definitions of artifacts

What an extension declares: activities with their settings, input and output; triggers with their
settings, the settings of each handler, and their output; functions with their arguments and result.
Schemas and definitions are read from loosely typed values and written back to them.
-/

namespace ExtensionKit

/-! ## Fields and schemas -/

/-- The key names of a field in one place of a declaration. -/
structure FieldKeys where
  /-- the name of the structure in messages -/
  structureName : String
  /-- the key of the name -/
  nameKey : String
  /-- the key of the type -/
  typeKey : String

/-- The keys of a field of a schema. -/
def FieldKeys.schemaField : FieldKeys := ⟨"FieldSpec", "fieldName", "fieldType"⟩

/-- The keys of an argument of a function. -/
def FieldKeys.argument : FieldKeys := ⟨"ArgumentSpec", "argName", "argType"⟩

namespace Field

/-- How a field is read; a type that is not given is `any`. -/
def shape (keys : FieldKeys) : Shape Field where
  name := keys.structureName
  start := ⟨"", .any⟩
  entries := [
    ⟨keys.nameKey, true, fun j f => do return { f with name := ← Declared.string j }⟩,
    ⟨keys.typeKey, false, fun j f => do return { f with type := ← Declared.type j }⟩]

/-- Reads a field. -/
def read (keys : FieldKeys) (surplus : Surplus) : Json → Declared Field :=
  (shape keys).read surplus

/-- Writes a field. -/
def toJson (keys : FieldKeys) (f : Field) : Json :=
  .object [(keys.nameKey, .string f.name), (keys.typeKey, .string f.type.name)]

end Field

namespace Schema

/-- Reads a schema. -/
def read (surplus : Surplus) (j : Json) : Declared Schema := do
  let fields ← Declared.list (Field.read .schemaField surplus) j
  match ofFields fields with
  | .ok s => return s
  | .error e => .fail (.schema e)

/-- Writes a schema. -/
def toJson (s : Schema) : Json := .array (s.fields.map (Field.toJson .schemaField))

end Schema

/-! ## Definitions -/

/-- The declaration of an activity. -/
structure ActivityDefinition where
  /-- its name within the extension -/
  name : String
  /-- what configures an instance -/
  settings : Schema
  /-- what an invocation takes -/
  input : Schema
  /-- what an invocation gives -/
  output : Schema
deriving DecidableEq, Inhabited

/-- The declaration of a trigger. -/
structure TriggerDefinition where
  /-- its name within the extension -/
  name : String
  /-- what configures an instance -/
  settings : Schema
  /-- what configures each handler -/
  handler : Schema
  /-- what an event carries -/
  output : Schema
deriving DecidableEq, Inhabited

/-- The declaration of a function. -/
structure FunctionDefinition where
  /-- its name within the category -/
  name : String
  /-- the category -/
  category : String
  /-- the arguments, by position -/
  arguments : List Field
  /-- the type of the result -/
  result : FieldType
deriving DecidableEq, Inhabited

namespace ActivityDefinition

/-- How the declaration of an activity is read. -/
def shape (surplus : Surplus) : Shape ActivityDefinition where
  name := "ActivityDefinition"
  start := ⟨"", .empty, .empty, .empty⟩
  entries := [
    ⟨"name", true, fun j d => do return { d with name := ← Declared.string j }⟩,
    ⟨"settings", false, fun j d => do return { d with settings := ← Schema.read surplus j }⟩,
    ⟨"input", false, fun j d => do return { d with input := ← Schema.read surplus j }⟩,
    ⟨"output", false, fun j d => do return { d with output := ← Schema.read surplus j }⟩]

/-- Reads the declaration of an activity. -/
def read (surplus : Surplus) : Json → Declared ActivityDefinition := (shape surplus).read surplus

/-- Writes the declaration of an activity. -/
def toJson (d : ActivityDefinition) : Json :=
  .object [("name", .string d.name), ("settings", d.settings.toJson), ("input", d.input.toJson),
    ("output", d.output.toJson)]

end ActivityDefinition

namespace TriggerDefinition

/-- How the declaration of a trigger is read. -/
def shape (surplus : Surplus) : Shape TriggerDefinition where
  name := "TriggerDefinition"
  start := ⟨"", .empty, .empty, .empty⟩
  entries := [
    ⟨"name", true, fun j d => do return { d with name := ← Declared.string j }⟩,
    ⟨"settings", false, fun j d => do return { d with settings := ← Schema.read surplus j }⟩,
    ⟨"handler", false, fun j d => do return { d with handler := ← Schema.read surplus j }⟩,
    ⟨"output", false, fun j d => do return { d with output := ← Schema.read surplus j }⟩]

/-- Reads the declaration of a trigger. -/
def read (surplus : Surplus) : Json → Declared TriggerDefinition := (shape surplus).read surplus

/-- Writes the declaration of a trigger. -/
def toJson (d : TriggerDefinition) : Json :=
  .object [("name", .string d.name), ("settings", d.settings.toJson),
    ("handler", d.handler.toJson), ("output", d.output.toJson)]

end TriggerDefinition

namespace FunctionDefinition

/-- How the declaration of a function is read. -/
def shape (surplus : Surplus) : Shape FunctionDefinition where
  name := "FunctionDefinition"
  start := ⟨"", "", [], .any⟩
  entries := [
    ⟨"name", true, fun j d => do return { d with name := ← Declared.string j }⟩,
    ⟨"category", true, fun j d => do return { d with category := ← Declared.string j }⟩,
    ⟨"arguments", false, fun j d => do
      return { d with arguments := ← Declared.list (Field.read .argument surplus) j }⟩,
    ⟨"returnType", false, fun j d => do return { d with result := ← Declared.type j }⟩]

/-- Reads the declaration of a function. -/
def read (surplus : Surplus) : Json → Declared FunctionDefinition := (shape surplus).read surplus

/-- Writes the declaration of a function. -/
def toJson (d : FunctionDefinition) : Json :=
  .object [("name", .string d.name), ("category", .string d.category),
    ("arguments", .array (d.arguments.map (Field.toJson .argument))),
    ("returnType", .string d.result.name)]

end FunctionDefinition

end ExtensionKit
