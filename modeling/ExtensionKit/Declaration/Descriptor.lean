import ExtensionKit.Artifact.Reference
import ExtensionKit.Declaration.Definition
import ExtensionKit.Digest
import ExtensionKit.Signature

/-!
# Descriptors

The description of an artifact that a host can store: its names, its fields section by section, and a
fingerprint. The fingerprint is the digest of the canonical text, which is the JSON text of the
descriptor with an empty fingerprint. Empty sections and an absent result are left out of the text.
-/

namespace ExtensionKit

/-- The description of one field. -/
structure FieldDescriptor where
  /-- the declared name -/
  name : String
  /-- the declared type -/
  type : FieldType
  /-- whether a value must be given -/
  required : Bool
deriving DecidableEq, Repr, Inhabited

namespace FieldDescriptor

/-- The description of a declared field. -/
def ofField (f : Field) : FieldDescriptor := ⟨f.name, f.type, f.required⟩

/-- Writes the description of a field. -/
def toJson (f : FieldDescriptor) : Json :=
  .object [("name", .string f.name), ("type", .string f.type.name), ("required", .bool f.required)]

/-- How the description of a field is read. -/
def shape : Shape FieldDescriptor where
  name := "FieldDescriptor"
  start := ⟨"", .any, false⟩
  entries := [
    ⟨"name", true, fun j f => do return { f with name := ← Declared.string j }⟩,
    ⟨"type", true, fun j f => do return { f with type := ← Declared.type j }⟩,
    ⟨"required", true, fun j f => do return { f with required := ← Declared.bool j }⟩]

/-- Reads the description of a field. -/
def read : Json → Declared FieldDescriptor := shape.read .refused

end FieldDescriptor

/-- The description of an artifact. -/
structure Descriptor where
  /-- the declared name -/
  name : String
  /-- the type of the artifact -/
  kind : String
  /-- the key of the artifact -/
  reference : String
  /-- what configures an instance -/
  settings : List FieldDescriptor
  /-- what configures each handler -/
  handler : List FieldDescriptor
  /-- what an invocation takes -/
  input : List FieldDescriptor
  /-- what an invocation or an event gives -/
  output : List FieldDescriptor
  /-- the arguments, by position -/
  arguments : List FieldDescriptor
  /-- the type of the result -/
  result : Option FieldType
  /-- the digest of all the rest -/
  fingerprint : String
deriving DecidableEq, Repr, Inhabited

namespace Descriptor

/-- A section: nothing if it is empty. -/
def sectionMembers (key : String) : List FieldDescriptor → Members
  | [] => []
  | fields => [(key, .array (fields.map FieldDescriptor.toJson))]

/-- The result: nothing if it is absent. -/
def resultMembers : Option FieldType → Members
  | none => []
  | some t => [("return", .string t.name)]

/-- Writes a descriptor. -/
def toJson (d : Descriptor) : Json :=
  .object <|
    [("name", .string d.name), ("type", .string d.kind), ("ref", .string d.reference)] ++
      sectionMembers "settings" d.settings ++ sectionMembers "handler" d.handler ++
      sectionMembers "input" d.input ++ sectionMembers "output" d.output ++
      sectionMembers "args" d.arguments ++ resultMembers d.result ++
      [("fingerprint", .string d.fingerprint)]

/-- Reads a section. -/
def readSection : Json → Declared (List FieldDescriptor) := Declared.list FieldDescriptor.read

/-- Reads a result, which may be null. -/
def readResult : Json → Declared (Option FieldType)
  | .null => return none
  | j => do return some (← Declared.type j)

/-- How a descriptor is read. -/
def shape : Shape Descriptor where
  name := "Descriptor"
  start := ⟨"", "", "", [], [], [], [], [], none, ""⟩
  entries := [
    ⟨"name", true, fun j d => do return { d with name := ← Declared.string j }⟩,
    ⟨"type", true, fun j d => do return { d with kind := ← Declared.string j }⟩,
    ⟨"ref", true, fun j d => do return { d with reference := ← Declared.string j }⟩,
    ⟨"settings", false, fun j d => do return { d with settings := ← readSection j }⟩,
    ⟨"handler", false, fun j d => do return { d with handler := ← readSection j }⟩,
    ⟨"input", false, fun j d => do return { d with input := ← readSection j }⟩,
    ⟨"output", false, fun j d => do return { d with output := ← readSection j }⟩,
    ⟨"args", false, fun j d => do return { d with arguments := ← readSection j }⟩,
    ⟨"return", false, fun j d => do return { d with result := ← readResult j }⟩,
    ⟨"fingerprint", false, fun j d => do return { d with fingerprint := ← Declared.string j }⟩]

/-- Reads a descriptor. -/
def read : Json → Declared Descriptor := shape.read .refused

/-- The text that the fingerprint covers. -/
def canonicalText (d : Descriptor) : String := { d with fingerprint := "" }.toJson.text

/-- The digest of the canonical text. -/
def computeFingerprint (d : Descriptor) : String :=
  Digest.sha256 d.canonicalText.toUTF8.toList

/-- The descriptor with its fingerprint. -/
def fingerprinted (d : Descriptor) : Descriptor := { d with fingerprint := d.computeFingerprint }

/-- A descriptor with no sections. -/
def bare (name kind : String) (reference : Reference) : Descriptor :=
  ⟨name, kind, reference.text, [], [], [], [], [], none, ""⟩

/-- The descriptions of the fields of a schema. -/
def ofSchema (s : Schema) : List FieldDescriptor := s.fields.map .ofField

/-- The descriptor of an activity. -/
def ofActivity (reference : Reference) (d : ActivityDefinition) : Descriptor :=
  { bare d.name "flowgen:activity" reference with
    settings := ofSchema d.settings
    input := ofSchema d.input
    output := ofSchema d.output }.fingerprinted

/-- The descriptor of a trigger. -/
def ofTrigger (reference : Reference) (d : TriggerDefinition) : Descriptor :=
  { bare d.name "flowgen:trigger" reference with
    settings := ofSchema d.settings
    handler := ofSchema d.handler
    output := ofSchema d.output }.fingerprinted

/-- The descriptor of a function with its compiled signature. -/
def ofFunction (reference : Reference) (d : FunctionDefinition) (s : Signature) : Descriptor :=
  { bare d.name "flowgen:function" reference with
    arguments := ofSchema s.parameters
    result := some s.result }.fingerprinted

end Descriptor

end ExtensionKit
