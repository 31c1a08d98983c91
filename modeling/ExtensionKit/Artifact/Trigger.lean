import ExtensionKit.Artifact.Settings
import ExtensionKit.Declaration.Descriptor

/-!
# Triggers

A trigger is registered, then initialized with its handlers, then started, then stopped, and never goes
back. While it is started, events fired at it are projected through its output record and handed to a
handler by name.

A trigger does not call its event source itself. Every operation returns the *effects* that it has, in
order: events reported, calls of the source, and calls of handlers. What the source answers when it is
called is an argument of `start` and `stop`.
-/

namespace ExtensionKit

/-- The description and the record types of a trigger. -/
structure TriggerMetadata where
  /-- the description -/
  descriptor : Descriptor
  /-- the type of the settings -/
  settings : Contract
  /-- the type of each handler's settings -/
  handlerSettings : Contract
  /-- the type of what events carry -/
  output : Contract

/-- The registered form of a trigger. -/
structure TriggerType where
  /-- the key -/
  reference : Reference
  /-- the description and the record types -/
  metadata : TriggerMetadata
  /-- how settings are resolved -/
  resolver : Resolver

/-- A flow that the host binds to a trigger. -/
structure Handler where
  /-- the name that events are fired at -/
  name : String
  /-- the raw settings -/
  settings : Members
  /-- runs the flow -/
  handle : Members → Except Fault Members

/-- A handler with its resolved settings. -/
structure Binding where
  /-- the handler -/
  handler : Handler
  /-- its settings -/
  settings : Record

/-- Where a trigger is in its life. -/
inductive TriggerState where
  | registered
  | initialized
  | started
  | stopped
deriving DecidableEq, Repr

namespace TriggerState

/-- The name of a state in messages. -/
def name : TriggerState → String
  | .registered => "registered"
  | .initialized => "initialized"
  | .started => "started"
  | .stopped => "stopped"

/-- The name of a state in debug texts. -/
def debugName : TriggerState → String
  | .registered => "Registered"
  | .initialized => "Initialized"
  | .started => "Started"
  | .stopped => "Stopped"

end TriggerState

/-- An instance of a trigger. -/
structure Trigger where
  /-- the name given by the host -/
  id : String
  /-- the metadata of its type -/
  metadata : TriggerMetadata
  /-- how settings are resolved -/
  resolver : Resolver
  /-- the resolved settings -/
  settings : Record
  /-- the bound handlers, in order -/
  handlers : List Binding
  /-- its logger -/
  logger : Logger
  /-- its state -/
  state : TriggerState

/-- Something that an operation does outside the trigger. -/
inductive TriggerEffect where
  /-- an event is reported -/
  | report (event : Event)
  /-- the source is started with these handlers -/
  | startSource (handlers : List Binding)
  /-- the source is stopped -/
  | stopSource
  /-- a handler is called with this data -/
  | callHandler (binding : Binding) (data : Members)

/-- The outcome of an operation. -/
structure TriggerOutcome (α : Type) where
  /-- the trigger afterwards -/
  trigger : Trigger
  /-- the effects, in order -/
  effects : List TriggerEffect
  /-- the result -/
  result : Except Fault α

namespace TriggerType

/-- The type of a declared trigger. -/
def ofDefinition (extension : String) (d : TriggerDefinition) : TriggerType :=
  let reference := Reference.trigger extension d.name
  { reference
    metadata :=
      { descriptor := .ofTrigger reference d
        settings := .compile "Settings" d.settings
        handlerSettings := .compile "HandlerSettings" d.handler
        output := .compile "Output" d.output }
    resolver := .byFields }

/-- Makes an instance from raw settings. -/
def newInstance (t : TriggerType) (id : String) (raw : Members) : Except Fault Trigger :=
  match t.resolver raw t.metadata.settings true with
  | .error e => .error e
  | .ok settings => .ok ⟨id, t.metadata, t.resolver, settings, [], .root, .registered⟩

/-- The type in debug form. -/
def debugText (t : TriggerType) : String :=
  "TriggerFactory \x7b reference: ArtifactRef(" ++ Text.Literal.quote t.reference.text ++ "), .. \x7d"

end TriggerType

namespace Trigger

/-- An operation that the state does not allow. -/
def refuse (t : Trigger) (action : String) : TriggerOutcome α :=
  ⟨t, [], .error (.transition t.id action t.state.name)⟩

/-- Resolves the settings of handlers one after another, up to the first that cannot be. -/
def bindAll (resolver : Resolver) (c : Contract) : List Handler → Except (Handler × Fault) (List Binding)
  | [] => .ok []
  | h :: rest =>
    match resolver h.settings c true with
    | .error e => .error (h, e)
    | .ok settings =>
      match bindAll resolver c rest with
      | .error failure => .error failure
      | .ok bindings => .ok (⟨h, settings⟩ :: bindings)

/-- Binds the handlers. If one cannot be, none is. -/
def bindHandlers (t : Trigger) (parent : Logger) (handlers : List Handler) : TriggerOutcome Unit :=
  if t.state ≠ .registered then t.refuse "initialize"
  else
    let t := { t with logger := parent.child t.id }
    match bindAll t.resolver t.metadata.handlerSettings handlers with
    | .error (h, e) =>
      ⟨t, [.report (t.logger.event .error
          ("Handler [" ++ h.name ++ "] settings could not be resolved: " ++ e.message))],
        .error (.handler h.name e)⟩
    | .ok bindings =>
      ⟨{ t with handlers := bindings, state := .initialized },
        [.report (t.logger.event .debug
          ("Initialized with " ++ String.ofList (Text.decimal bindings.length) ++ " handler(s)"))],
        .ok ()⟩

/-- Starts the source, which gives this answer. -/
def start (t : Trigger) (answer : Except Fault Unit) : TriggerOutcome Unit :=
  if t.state ≠ .initialized then t.refuse "start"
  else match answer with
    | .error e => ⟨t, [.startSource t.handlers], .error e⟩
    | .ok () =>
      ⟨{ t with state := .started },
        [.startSource t.handlers, .report (t.logger.event .info "Trigger started")], .ok ()⟩

/-- Delivers an event to the first handler of a name. -/
def fire (t : Trigger) (name : String) (event : Members) : TriggerOutcome Members :=
  if t.state ≠ .started then t.refuse "fire"
  else match t.handlers.find? fun b => b.handler.name == name with
    | none => ⟨t, [], .error (.handlerNotFound name)⟩
    | some binding =>
      match t.metadata.output.ofMembers event with
      | .error e => ⟨t, [], .error (.record e)⟩
      | .ok output =>
        ⟨t, [.callHandler binding output.toMembers], binding.handler.handle output.toMembers⟩

/-- Stops the source, which gives this answer. A trigger that is not started has no source to stop. -/
def stop (t : Trigger) (answer : Except Fault Unit) : TriggerOutcome Unit :=
  match t.state with
  | .stopped => ⟨t, [], .ok ()⟩
  | .started =>
    match answer with
    | .error e => ⟨t, [.stopSource], .error e⟩
    | .ok () =>
      ⟨{ t with state := .stopped },
        [.stopSource, .report (t.logger.event .info "Trigger stopped")], .ok ()⟩
  | _ => ⟨{ t with state := .stopped }, [], .ok ()⟩

/-- A trigger with no handlers in debug form. -/
def debugText (t : Trigger) : String :=
  "Trigger \x7b id: " ++ Text.Literal.quote t.id ++ ", state: " ++ t.state.debugName ++
    ", handlers: [], .. \x7d"

end Trigger

end ExtensionKit
