import ExtensionKit.Generated.ManifestSource

/-!
# The command line

A call names a command and the file of a manifest. `describe` prints the descriptors of all artifacts,
`render` prints the source of the manifest, and `check` registers all artifacts in an empty registry and
prints their keys. A call that fails prints nothing but an error report, which names what was tried and,
below that, the chain of causes.
-/

namespace ExtensionKit.CommandLine

/-- What can be asked for. -/
inductive Command where
  | describe
  | render
  | check
deriving DecidableEq, Repr

/-- The command of a name. -/
def Command.ofName? : String → Option Command
  | "describe" => some .describe
  | "render" => some .render
  | "check" => some .check
  | _ => none

/-- A well-formed call. -/
structure Invocation where
  /-- what is asked for -/
  command : Command
  /-- the path of the manifest -/
  path : String
deriving DecidableEq, Repr

/-- Whether an argument is an option: a hyphen with something after it. -/
def isOption (argument : String) : Bool :=
  match argument.toList with
  | '-' :: _ :: _ => true
  | _ => false

/-- The arguments that are not options. All arguments after the first `--` are of this kind; there is no
option, so any other argument that looks like one is refused. -/
def positionals? : List String → Option (List String)
  | [] => some []
  | "--" :: rest => some rest
  | a :: rest => if isOption a then none else (positionals? rest).map (a :: ·)

/-- Reads the arguments of a call: a command and a path that is not empty. -/
def Invocation.ofArguments? : List String → Option Invocation
  | [] => none
  | name :: rest => do
    let command ← Command.ofName? name
    match ← positionals? rest with
    | [path] => if path = "" then none else some ⟨command, path⟩
    | _ => none

/-! ## Reports -/

/-- Why a call failed. -/
structure Report where
  /-- what failed -/
  message : String
  /-- what led to it, from the nearest on -/
  causes : List String
deriving DecidableEq, Repr

/-- A text with something before its first line and before each other line. -/
def indented (first others text : String) : String :=
  first ++ String.ofList (text.toList.flatMap fun c => if c = '\n' then '\n' :: others.toList else [c])

/-- The lines of numbered causes; the index is that of the first. -/
def numberedCauses : (index : Nat) → List String → String
  | _, [] => ""
  | index, cause :: rest =>
    let number := Text.decimal index
    let mark := String.ofList (List.replicate (5 - number.length) ' ' ++ number) ++ ": "
    "\n" ++ indented mark "       " cause ++ numberedCauses (index + 1) rest

/-- The lines of causes; a single one has no number. -/
def causesText : List String → String
  | [] => ""
  | [cause] => "\n\nCaused by:\n" ++ indented "    " "    " cause
  | causes => "\n\nCaused by:" ++ numberedCauses 0 causes

/-- The text of a report. -/
def Report.text (r : Report) : String := "Error: " ++ r.message ++ causesText r.causes ++ "\n"

/-! ## Commands -/

/-- What a call does to the outside. -/
structure Outcome where
  /-- the exit code -/
  exitCode : Nat
  /-- what it prints -/
  stdout : String
  /-- what it reports -/
  stderr : String
deriving DecidableEq, Repr

/-- The outcome of a call with a result or a report. -/
def Outcome.ofResult : Except Report String → Outcome
  | .ok text => ⟨0, text, ""⟩
  | .error report => ⟨1, "", report.text⟩

/-- The outcome of a call that is not well formed. -/
def Outcome.misuse : Outcome :=
  ⟨2, "", "Usage: flowgen <describe|render|check> <MANIFEST>\n"⟩

/-- Prints the descriptors. -/
def describe (m : Manifest) : Except Report String :=
  match m.descriptors with
  | .error e => .error ⟨"Failed to build artifact descriptors", [e.message]⟩
  | .ok ds => .ok ((Json.array (ds.map Descriptor.toJson)).prettyText ++ "\n")

/-- Prints the source. -/
def render (m : Manifest) : Except Report String :=
  match m.sourceSections with
  | .error e => .error ⟨e.message, []⟩
  | .ok sections => .ok ("\n".intercalate sections ++ "\n")

/-- Prints the keys. -/
def check (m : Manifest) : Except Report String :=
  match (m.register .empty).value.2 with
  | .error e => .error ⟨"Extension " ++ m.name ++ " failed registration", [e.message]⟩
  | .ok references => .ok (String.join (references.map fun r => r.text ++ "\n"))

/-- Runs a command. -/
def Command.run : Command → Manifest → Except Report String
  | .describe => CommandLine.describe
  | .render => CommandLine.render
  | .check => CommandLine.check

/-- Runs a call on a file with this content. -/
def Invocation.run (i : Invocation) (content : Except FileFault String) : Outcome :=
  .ofResult <|
    match (Manifest.ofFile i.path content).value with
    | .error e => .error ⟨"Failed to load manifest " ++ i.path, e.message :: e.causes⟩
    | .ok m => i.command.run m

end ExtensionKit.CommandLine
