import ExtensionKit.Generated.FunctionSource
import ExtensionKit.Generated.RecordSource
import ExtensionKit.Manifest.Registration

/-!
# The source of a manifest

The source has a part for each artifact: a comment with its key, and then the types generated for it, of
which an activity and a trigger have three and a function has one. All types are in one name space, so a
name may be generated only once. A clash between records is reported before a function that does not
compile, and that before a clash in which a function takes part.
-/

namespace ExtensionKit

namespace Generated

/-- A type in generated source. -/
structure NamedSource where
  /-- the name of the type -/
  typeName : String
  /-- its source -/
  source : String

/-- The source of one artifact. -/
structure Part where
  /-- the key of the artifact -/
  owner : Reference
  /-- the types, in order -/
  types : List NamedSource

/-- The source of a record type of an artifact, whose name comes before that of the record. -/
def ownedRecord (artifact : String) (c : Contract) : NamedSource :=
  let typeName := Identifier.exported artifact ++ c.name
  ⟨typeName, recordSource typeName c⟩

/-- The part of an activity. -/
def activityPart (a : ActivityType) : Part :=
  ⟨a.reference, [a.metadata.settings, a.metadata.input, a.metadata.output].map
    (ownedRecord a.metadata.descriptor.name)⟩

/-- The part of a trigger. -/
def triggerPart (t : TriggerType) : Part :=
  ⟨t.reference, [t.metadata.settings, t.metadata.handlerSettings, t.metadata.output].map
    (ownedRecord t.metadata.descriptor.name)⟩

/-- The part of a function. -/
def functionPart (f : HostFunction) : Part :=
  ⟨f.reference, [⟨Identifier.functionType f.name, functionSource f.name f.category f.signature⟩]⟩

/-- The names of the types of some parts, each with the key of its artifact. -/
def claims (parts : List Part) : List (String × Reference) :=
  parts.flatMap fun p => p.types.map fun t => (t.typeName, p.owner)

/-- The first name that is taken already or stands earlier in the list, with the key that comes with
it. -/
def firstClash? (taken : List String) : List (String × Reference) → Option (String × Reference)
  | [] => none
  | (name, owner) :: rest =>
    if name ∈ taken then some (name, owner) else firstClash? (name :: taken) rest

/-- The sections of the text of some parts. -/
def sections (parts : List Part) : List String :=
  parts.flatMap fun p => ("// " ++ p.owner.text) :: p.types.map NamedSource.source

end Generated

/-- Why a manifest has no source. -/
inductive SourceFault where
  /-- a type of an artifact has the name of an earlier one -/
  | clash (typeName : String) (owner : Reference)
  /-- a function does not compile -/
  | schema (source : SchemaError)

/-- The wording of a fault. -/
def SourceFault.message : SourceFault → String
  | .clash typeName owner =>
    "Generated type " ++ typeName ++ " for " ++ owner.text ++ " clashes with an earlier artifact"
  | .schema source => source.message

namespace Manifest

open Generated

/-- The parts of the activities and the triggers. -/
def recordParts (m : Manifest) : List Part :=
  m.activityTypes.map activityPart ++ m.triggerTypes.map triggerPart

/-- The sections of the source of a manifest. -/
def sourceSections (m : Manifest) : Except SourceFault (List String) :=
  match firstClash? [] (claims m.recordParts) with
  | some (typeName, owner) => .error (.clash typeName owner)
  | none =>
    match m.hostFunctions with
    | .error e => .error (.schema e)
    | .ok fs =>
      match firstClash? ((claims m.recordParts).map Prod.fst) (claims (fs.map functionPart)) with
      | some (typeName, owner) => .error (.clash typeName owner)
      | none => .ok (sections (m.recordParts ++ fs.map functionPart))

end Manifest

end ExtensionKit
