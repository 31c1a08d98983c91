import ExtensionKit.Declaration.Definition
import ExtensionKit.Toml.Reader

/-!
# Manifests

A manifest declares an extension: one name and any number of activities, triggers and functions. It is
written in TOML. A manifest that cannot be read in full is not read at all, and one whose name is blank
is refused; but the type names that are not known are reported either way, in the order of the text.
-/

namespace ExtensionKit

/-- The declaration of an extension. -/
structure Manifest where
  /-- the name of the extension -/
  name : String
  /-- its activities, in order -/
  activities : List ActivityDefinition
  /-- its triggers, in order -/
  triggers : List TriggerDefinition
  /-- its functions, in order -/
  functions : List FunctionDefinition
deriving DecidableEq, Inhabited

/-- Why the text of a file could not be had. -/
inductive FileFault where
  /-- there is no such file -/
  | absent
  /-- it is a directory -/
  | directory
  /-- the path goes through something that is no directory -/
  | notDirectory
  /-- its bytes are not text -/
  | notText
  /-- something else, in the words of the system -/
  | other (message : String)
deriving DecidableEq, Repr

/-- The wording of a fault. -/
def FileFault.message : FileFault → String
  | .absent => "No such file or directory (os error 2)"
  | .directory => "Is a directory (os error 21)"
  | .notDirectory => "Not a directory (os error 20)"
  | .notText => "stream did not contain valid UTF-8"
  | .other message => message

/-- The text that the bytes of a file hold. -/
def textOfBytes (bytes : ByteArray) : Except FileFault String :=
  match String.fromUTF8? bytes with
  | some text => .ok text
  | none => .error .notText

/-- Why a manifest could not be loaded. -/
inductive ManifestFault where
  /-- the file could not be read -/
  | unreadable (path : String) (source : FileFault)
  /-- the text is not TOML -/
  | malformed (source : Toml.Fault)
  /-- the text declares no extension -/
  | declaration (source : DeclarationError)
  /-- the name is blank -/
  | missingName

namespace ManifestFault

/-- The wording of what led to a fault, from the nearest on. -/
def causes : ManifestFault → List String
  | .unreadable _ source => [source.message]
  | .malformed source => [source.message]
  | .declaration source => [source.message]
  | .missingName => []

/-- The wording of a fault. -/
def message : ManifestFault → String
  | .unreadable path source => "failed to read manifest " ++ path ++ ": " ++ source.message
  | .malformed source => "failed to parse manifest: " ++ source.message
  | .declaration source => "failed to parse manifest: " ++ source.message
  | .missingName => "manifest has no extension name"

end ManifestFault

namespace Manifest

/-- How a manifest is read. In a manifest an array that stands for a structure may be too long. -/
def shape : Shape Manifest where
  name := "ExtensionManifest"
  start := ⟨"", [], [], []⟩
  entries := [
    ⟨"name", true, fun j m => do return { m with name := ← Declared.string j }⟩,
    ⟨"activity", false, fun j m => do
      return { m with activities := ← Declared.list (ActivityDefinition.read .ignored) j }⟩,
    ⟨"trigger", false, fun j m => do
      return { m with triggers := ← Declared.list (TriggerDefinition.read .ignored) j }⟩,
    ⟨"function", false, fun j m => do
      return { m with functions := ← Declared.list (FunctionDefinition.read .ignored) j }⟩]

/-- The event that reports a loaded manifest. -/
def loadedEvent (m : Manifest) : Event :=
  ⟨.debug, "Manifest loaded", [("extension", m.name),
    ("activities", String.ofList (Text.decimal m.activities.length)),
    ("triggers", String.ofList (Text.decimal m.triggers.length)),
    ("functions", String.ofList (Text.decimal m.functions.length))]⟩

/-- Loads a manifest from its text. -/
def ofText (text : String) : Logged (Except ManifestFault Manifest) :=
  match Toml.read text.toList with
  | .error fault => pure (.error (.malformed fault))
  | .ok members => do
    match ← (shape.read .ignored (.object members)).run with
    | .error e => return .error (.declaration e)
    | .ok m =>
      if Text.trim m.name.toList = [] then return .error .missingName
      else
        Logged.report m.loadedEvent
        return .ok m

/-- Loads a manifest from a file with this content. -/
def ofFile (path : String) (content : Except FileFault String) :
    Logged (Except ManifestFault Manifest) :=
  match content with
  | .error fault => pure (.error (.unreadable path fault))
  | .ok text => ofText text

end Manifest

end ExtensionKit
