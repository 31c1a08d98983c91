import ExtensionKit.Artifact.Fault
import ExtensionKit.Record.Basic

/-!
# Settings

A resolver takes raw configuration to a record of settings. The usual one goes through the fields in
order and coerces each value; where a value is missing it fails if it is strict, and else takes null.
-/

namespace ExtensionKit

/-- How settings are resolved: from raw configuration, for a contract, strictly or not. -/
abbrev Resolver := Members → Contract → (strict : Bool) → Except Fault Record

namespace Resolver

/-- Resolves some fields into a record. -/
def resolveFields (raw : Members) (strict : Bool) : Record → List Field → Except Fault Record
  | r, [] => .ok r
  | r, f :: rest =>
    let found := raw.get? f.name
    if strict && found.isNone then .error (.setting r.contract.name f.name .missing)
    else
      match f.coercion.apply (found.getD .null) with
      | .error e => .error (.setting r.contract.name f.name (.coercion e))
      | .ok value =>
        match r.set f.name value with
        | .error e => .error (.record e)
        | .ok r => resolveFields raw strict r rest

/-- The resolver that goes by the fields of the contract. -/
def byFields : Resolver := fun raw c strict => resolveFields raw strict (Record.new c) c.fields

/-- The resolver that goes by the fields of the contract and is never strict. -/
def lenient : Resolver := fun raw c _ => byFields raw c false

end Resolver

end ExtensionKit
