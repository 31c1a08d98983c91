import ExtensionKit.Artifact.Activity
import ExtensionKit.Artifact.Function
import ExtensionKit.Artifact.Trigger

/-!
# The registry

Hosts look artifacts up by their keys. The entries are kept in the order of the keys; a key is taken
once and for all by the first artifact that is registered under it.
-/

namespace ExtensionKit

/-- Anything that can be registered. -/
inductive Artifact where
  | activity (type : ActivityType)
  | trigger (type : TriggerType)
  | function (function : HostFunction)

namespace Artifact

/-- The kind of an artifact. -/
def kind : Artifact → ArtifactKind
  | .activity _ => .activity
  | .trigger _ => .trigger
  | .function _ => .function

/-- The key of an artifact. -/
def reference : Artifact → Reference
  | .activity a => a.reference
  | .trigger t => t.reference
  | .function f => f.reference

/-- An artifact in debug form. -/
def debugText (a : Artifact) : String :=
  "Artifact \x7b kind: " ++ a.kind.debugName ++ ", reference: ArtifactRef(" ++
    Text.Literal.quote a.reference.text ++ ") \x7d"

end Artifact

/-- The registered artifacts, in the order of their keys. -/
structure Registry where
  /-- keys and artifacts -/
  entries : List (Reference × Artifact)

namespace Registry

/-- The registry without artifacts. -/
def empty : Registry := ⟨[]⟩

/-- The artifact of a key. -/
def get? (r : Registry) (reference : Reference) : Option Artifact := r.entries.lookup reference

/-- The keys in order. -/
def references (r : Registry) : List Reference := r.entries.map Prod.fst

/-- The number of artifacts. -/
def size (r : Registry) : Nat := r.entries.length

/-- Puts an entry before the first one with a greater key. -/
def insertEntry (reference : Reference) (a : Artifact) :
    List (Reference × Artifact) → List (Reference × Artifact)
  | [] => [(reference, a)]
  | (key, b) :: rest =>
    if reference.text < key.text then (reference, a) :: (key, b) :: rest
    else (key, b) :: insertEntry reference a rest

/-- The event that reports a registration. -/
def event (level : Level) (message : String) (a : Artifact) : Event :=
  ⟨level, message, [("artifact", a.reference.text), ("kind", a.kind.name)]⟩

/-- Registers an artifact under its key, unless the key is taken. -/
def register (r : Registry) (a : Artifact) : Logged (Registry × Except Fault Reference) :=
  if (r.get? a.reference).isSome then
    ⟨[event .error "Duplicate artifact registration" a],
      (r, .error (.conflict a.reference.text))⟩
  else
    ⟨[event .info "Artifact registered" a],
      (⟨insertEntry a.reference a r.entries⟩, .ok a.reference)⟩

/-- The activity of a key. -/
def activity (r : Registry) (reference : Reference) : Except Fault ActivityType :=
  match r.get? reference with
  | some (.activity a) => .ok a
  | _ => .error (.artifactNotFound reference.text)

/-- The trigger of a key. -/
def trigger (r : Registry) (reference : Reference) : Except Fault TriggerType :=
  match r.get? reference with
  | some (.trigger t) => .ok t
  | _ => .error (.artifactNotFound reference.text)

/-- The function of a key. -/
def function (r : Registry) (reference : Reference) : Except Fault HostFunction :=
  match r.get? reference with
  | some (.function f) => .ok f
  | _ => .error (.artifactNotFound reference.text)

end Registry

end ExtensionKit
