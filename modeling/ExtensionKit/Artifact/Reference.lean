/-!
# References

The key under which an artifact is registered, derived from its kind and its names. References are
ordered as texts.
-/

namespace ExtensionKit

/-- What kind of thing an artifact is. -/
inductive ArtifactKind where
  | activity
  | function
  | trigger
deriving DecidableEq, Repr

namespace ArtifactKind

/-- The name of a kind. -/
def name : ArtifactKind → String
  | .activity => "activity"
  | .function => "function"
  | .trigger => "trigger"

/-- The name of a kind in debug texts. -/
def debugName : ArtifactKind → String
  | .activity => "Activity"
  | .function => "Function"
  | .trigger => "Trigger"

end ArtifactKind

/-- The key of an artifact. -/
structure Reference where
  /-- the key as text -/
  text : String
deriving DecidableEq, Repr

namespace Reference

/-- The key of an activity of an extension. -/
def activity (extension name : String) : Reference := ⟨extension ++ "/activity/" ++ name⟩

/-- The key of a trigger of an extension. -/
def trigger (extension name : String) : Reference := ⟨extension ++ "/trigger/" ++ name⟩

/-- The key of a function of a category. -/
def function (category name : String) : Reference := ⟨category ++ "." ++ name⟩

/-- The key of an artifact of a kind; the scope is the extension or the category. -/
def derive (kind : ArtifactKind) (scope name : String) : Reference :=
  match kind with
  | .activity => activity scope name
  | .trigger => trigger scope name
  | .function => function scope name

end Reference

end ExtensionKit
