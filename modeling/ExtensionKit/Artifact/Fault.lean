import ExtensionKit.Record.Error
import ExtensionKit.Record.Schema

/-!
# Faults of artifacts

What can go wrong between a host and its artifacts.
-/

namespace ExtensionKit

/-- Why a setting could not be resolved. -/
inductive SettingReason where
  /-- it is not configured -/
  | missing
  /-- its value could not be coerced -/
  | coercion (source : CoercionError)

/-- The wording of a reason. -/
def SettingReason.message : SettingReason → String
  | .missing => "required value is missing"
  | .coercion source => source.message

/-- What went wrong. -/
inductive Fault where
  /-- a setting could not be resolved -/
  | setting (contract name : String) (reason : SettingReason)
  /-- the settings of a handler could not be resolved -/
  | handler (name : String) (source : Fault)
  /-- the key is taken -/
  | conflict (reference : String)
  /-- no artifact of this kind has the key -/
  | artifactNotFound (reference : String)
  /-- no handler has the name -/
  | handlerNotFound (name : String)
  /-- the artifact is in the wrong state for the action -/
  | transition (artifact action state : String)
  /-- the author's code failed -/
  | eval (message : String)
  /-- a record or an argument list could not be filled -/
  | record (source : RecordError)
  /-- a list of fields is no schema -/
  | schema (source : SchemaError)

/-- The wording of a fault. -/
def Fault.message : Fault → String
  | .setting contract name reason =>
    "settings resolution failed for " ++ contract ++ "." ++ name ++ ": " ++ reason.message
  | .handler name source =>
    "handler '" ++ name ++ "' settings could not be resolved: " ++ source.message
  | .conflict reference => "artifact already registered: " ++ reference
  | .artifactNotFound reference => "artifact not found: " ++ reference
  | .handlerNotFound name => "handler not found: " ++ name
  | .transition artifact action state => artifact ++ ": cannot " ++ action ++ " while " ++ state
  | .eval message => "evaluation failed: " ++ message
  | .record source => source.message
  | .schema source => source.message

end ExtensionKit
