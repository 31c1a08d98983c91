import ExtensionKit.Artifact.Registry
import ExtensionKit.Manifest.Basic

/-!
# The artifacts of a manifest

The artifacts that a manifest declares come in the order activities, triggers, functions. They are
registered in this order up to the first whose key is taken. All functions are compiled after the last
trigger and before the first function is registered, so a function that does not compile keeps out every
function, but no activity and no trigger.
-/

namespace ExtensionKit

/-- Compiles functions, up to the first that does not compile. -/
def HostFunction.compileAll : List FunctionDefinition → Except SchemaError (List HostFunction)
  | [] => .ok []
  | d :: rest =>
    match compile d with
    | .error e => .error e
    | .ok f =>
      match compileAll rest with
      | .error e => .error e
      | .ok fs => .ok (f :: fs)

/-- Registers artifacts, up to the first whose key is taken. -/
def Registry.registerAll (r : Registry) :
    List Artifact → Logged (Registry × Except Fault (List Reference))
  | [] => pure (r, .ok [])
  | a :: rest => do
    match ← r.register a with
    | (r, .error e) => return (r, .error e)
    | (r, .ok reference) =>
      let (r, result) ← r.registerAll rest
      return (r, result.map (reference :: ·))

namespace Manifest

/-- The types of the activities. -/
def activityTypes (m : Manifest) : List ActivityType :=
  m.activities.map (.ofDefinition m.name)

/-- The types of the triggers. -/
def triggerTypes (m : Manifest) : List TriggerType :=
  m.triggers.map (.ofDefinition m.name)

/-- The functions, without bodies. -/
def hostFunctions (m : Manifest) : Except SchemaError (List HostFunction) :=
  HostFunction.compileAll m.functions

/-- The descriptors of all artifacts. -/
def descriptors (m : Manifest) : Except SchemaError (List Descriptor) :=
  m.hostFunctions.map fun fs =>
    m.activityTypes.map (·.metadata.descriptor) ++ m.triggerTypes.map (·.metadata.descriptor) ++
      fs.map (·.descriptor)

/-- Registers all artifacts and gives their keys. -/
def register (m : Manifest) (r : Registry) : Logged (Registry × Except Fault (List Reference)) := do
  match ← r.registerAll (m.activityTypes.map .activity ++ m.triggerTypes.map .trigger) with
  | (r, .error e) => return (r, .error e)
  | (r, .ok references) =>
    match m.hostFunctions with
    | .error e => return (r, .error (.schema e))
    | .ok fs =>
      let (r, result) ← r.registerAll (fs.map .function)
      return (r, result.map (references ++ ·))

end Manifest

end ExtensionKit
