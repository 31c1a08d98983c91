import ExtensionKit.Artifact.Fault
import ExtensionKit.Declaration.Descriptor

/-!
# Functions

A function that hosts evaluate: its names, its signature, its descriptor and the author's body, if there
is one. `HostFunction.eval` says what an evaluation does: the events it reports, the argument lists that
the body is called with, and its result. Without a body the result is a stand-in.
-/

namespace ExtensionKit

/-- A function with a compiled signature. -/
structure HostFunction where
  /-- the declared name -/
  name : String
  /-- the declared category -/
  category : String
  /-- the compiled signature -/
  signature : Signature
  /-- the description -/
  descriptor : Descriptor
  /-- the author's code -/
  body : Option (List Value → Except Fault Value)

/-- What an evaluation did. -/
structure Evaluation where
  /-- the events reported -/
  events : List Event
  /-- the argument lists that the body was called with -/
  calls : List (List Value)
  /-- the result -/
  result : Except Fault Value

namespace HostFunction

/-- The function of a declaration, without a body. -/
def compile (d : FunctionDefinition) : Except SchemaError HostFunction :=
  match Signature.compile d.arguments d.result with
  | .error e => .error e
  | .ok signature =>
    .ok ⟨d.name, d.category, signature,
      .ofFunction (.function d.category d.name) d signature, none⟩

/-- The key of the function. -/
def reference (f : HostFunction) : Reference := .function f.category f.name

/-- The event at the start of an evaluation. -/
def startEvent (f : HostFunction) : Event :=
  ⟨.debug, "Start of function", [("function", f.name), ("category", f.category)]⟩

/-- Evaluates the function. -/
def eval (f : HostFunction) (params : List Json) : Evaluation :=
  match f.signature.coerce params with
  | .error e => ⟨[f.startEvent], [], .error (.record e)⟩
  | .ok args =>
    match f.body with
    | some body => ⟨[f.startEvent], [args], body args⟩
    | none => ⟨[f.startEvent], [], .ok f.signature.placeholder⟩

end HostFunction

end ExtensionKit
