import ExtensionKit.Artifact.Settings
import ExtensionKit.Declaration.Descriptor

/-!
# Activities

The registered form of an activity is its type. An instance has resolved settings and serves any number
of invocations. Each invocation takes its input from a host, runs the author's logic, and gives its
output to the host. `cleanup` ends an instance: later invocations are refused, but those that have
started run to their end.

The author's logic may act on the instance that runs it, so it is a function on *sessions*. A session is
an instance together with the events reported so far and whatever else the logic keeps track of.
-/

namespace ExtensionKit

/-- The description and the record types of an activity. -/
structure ActivityMetadata where
  /-- the description -/
  descriptor : Descriptor
  /-- the type of the settings -/
  settings : Contract
  /-- the type of the input -/
  input : Contract
  /-- the type of the output -/
  output : Contract

/-- The registered form of an activity. -/
structure ActivityType where
  /-- the key -/
  reference : Reference
  /-- the name of the instances' loggers -/
  loggerName : String
  /-- the description and the record types -/
  metadata : ActivityMetadata
  /-- how settings are resolved -/
  resolver : Resolver

/-- What an invocation needs of its host: a name, an input, and a place for the output. -/
class ActivityHost (κ : Type) where
  /-- the name of the activity within the flow -/
  name : κ → String
  /-- the raw input -/
  inputs : κ → Members
  /-- hands an output over; the host may refuse it -/
  setOutputs : Members → κ → Except Fault Unit × κ

/-- A host that keeps what an invocation takes and gives. -/
structure ActivityContext where
  /-- the name of the activity within the flow -/
  name : String
  /-- the raw input -/
  inputs : Members
  /-- the output -/
  outputs : Members
  /-- whether the host takes an output -/
  accept : Members → Except Fault Unit

instance : ActivityHost ActivityContext where
  name := ActivityContext.name
  inputs := ActivityContext.inputs
  setOutputs outputs ctx :=
    match ctx.accept outputs with
    | .error e => (.error e, ctx)
    | .ok () => (.ok (), { ctx with outputs })

/-- Where an instance is in its life. -/
inductive ActivityState where
  | initialized
  /-- an invocation is running -/
  | evaluating
  | cleaned
deriving DecidableEq, Repr

namespace ActivityState

/-- The name of a state in messages. -/
def name : ActivityState → String
  | .initialized => "initialized"
  | .evaluating => "evaluating"
  | .cleaned => "cleaned"

/-- The name of a state in debug texts. -/
def debugName : ActivityState → String
  | .initialized => "Initialized"
  | .evaluating => "Evaluating"
  | .cleaned => "Cleaned"

end ActivityState

/-- An instance of an activity. -/
structure Activity where
  /-- the declared name -/
  name : String
  /-- its logger -/
  logger : Logger
  /-- the resolved settings -/
  settings : Record
  /-- the metadata of its type -/
  metadata : ActivityMetadata
  /-- how many invocations are running -/
  running : Nat
  /-- whether it has ended -/
  isCleaned : Bool

/-- An instance, what was reported, and what else is kept track of. -/
structure Session (σ : Type) where
  /-- the instance -/
  activity : Activity
  /-- the events reported so far -/
  events : List Event
  /-- the rest of the world -/
  world : σ

/-- The author's code: from settings, input and an output to fill, to a filled output. -/
abbrev ActivityLogic (σ : Type) :=
  (settings input output : Record) → Session σ → Except Fault Record × Session σ

/-- The outcome of an invocation. -/
structure ActivityOutcome (κ σ : Type) where
  /-- whether the activity is done, or what went wrong -/
  result : Except Fault Bool
  /-- the host afterwards -/
  host : κ
  /-- the session afterwards -/
  session : Session σ

namespace ActivityType

/-- The type of a declared activity. -/
def ofDefinition (extension : String) (d : ActivityDefinition) : ActivityType :=
  let reference := Reference.activity extension d.name
  { reference
    loggerName := extension ++ "-" ++ d.name
    metadata :=
      { descriptor := .ofActivity reference d
        settings := .compile "Settings" d.settings
        input := .compile "Input" d.input
        output := .compile "Output" d.output }
    resolver := .byFields }

/-- An event for each field of a contract that is set in a record. -/
def fieldEvents (logger : Logger) (label : String) (c : Contract) (r : Record) : List Event :=
  c.fields.filterMap fun f => (r.get? f.name).map fun v =>
    logger.event .debug (label ++ ": " ++ f.ident ++ " = " ++ v.toJson.text)

/-- Makes an instance from raw settings. -/
def newInstance (a : ActivityType) (raw : Members) (parent : Logger) :
    Logged (Except Fault Activity) :=
  match a.resolver raw a.metadata.settings true with
  | .error e => ⟨[], .error e⟩
  | .ok settings =>
    let logger := parent.child a.loggerName
    ⟨fieldEvents logger "Setting" a.metadata.settings settings,
      .ok ⟨a.metadata.descriptor.name, logger, settings, a.metadata, 0, false⟩⟩

/-- The type in debug form. -/
def debugText (a : ActivityType) : String :=
  "ActivityFactory \x7b reference: ArtifactRef(" ++ Text.Literal.quote a.reference.text ++
    "), .. \x7d"

end ActivityType

namespace Activity

/-- The state of the instance. -/
def state (a : Activity) : ActivityState :=
  if a.isCleaned then .cleaned
  else if 0 < a.running then .evaluating
  else .initialized

/-- The instance in debug form. -/
def debugText (a : Activity) : String :=
  "Activity \x7b name: " ++ Text.Literal.quote a.name ++ ", logger: Logger \x7b name: " ++
    Text.Literal.quote a.logger.name ++ " \x7d, state: " ++ a.state.debugName ++ ", .. \x7d"

end Activity

namespace Session

variable {σ : Type}

/-- A session before anything is reported. -/
def start (a : Activity) (world : σ) : Session σ := ⟨a, [], world⟩

/-- Reports some events. -/
def reportAll (s : Session σ) (events : List Event) : Session σ :=
  { s with events := s.events ++ events }

/-- Reports a message of the instance. -/
def report (s : Session σ) (level : Level) (message : String) : Session σ :=
  s.reportAll [s.activity.logger.event level message]

/-- Counts one more running invocation. -/
def enter (s : Session σ) : Session σ :=
  { s with activity := { s.activity with running := s.activity.running + 1 } }

/-- Counts one less running invocation. -/
def leave (s : Session σ) : Session σ :=
  { s with activity := { s.activity with running := s.activity.running - 1 } }

/-- Reports that an invocation begins. -/
def begin [ActivityHost κ] (host : κ) (s : Session σ) : Session σ :=
  s.report .debug ("Executing Activity [" ++ ActivityHost.name host ++ "]")

/-- Runs the logic on an input, with an output to fill. -/
def evaluate (logic : ActivityLogic σ) (input : Record) (s : Session σ) :
    Except Fault Record × Session σ :=
  logic s.activity.settings input (Record.new s.activity.metadata.output)
    (s.reportAll (ActivityType.fieldEvents s.activity.logger "Input" s.activity.metadata.input input))

/-- Hands an output over to the host. -/
def handOver [ActivityHost κ] (output : Record) (host : κ) (s : Session σ) : ActivityOutcome κ σ :=
  let outputs := output.toMembers
  let s := s.reportAll (outputs.map fun (key, value) =>
    s.activity.logger.event .debug ("Output: " ++ key ++ " = " ++ value.text))
  match ActivityHost.setOutputs outputs host with
  | (.error e, host) => ⟨.error e, host, s⟩
  | (.ok (), host) =>
    ⟨.ok true, host,
      s.report .debug ("Execution of Activity [" ++ ActivityHost.name host ++ "] completed")⟩

/-- Runs an admitted invocation. -/
def invokeAdmitted [ActivityHost κ] (logic : ActivityLogic σ) (host : κ) (s : Session σ) :
    ActivityOutcome κ σ :=
  let s := s.begin host
  match s.activity.metadata.input.ofMembers (ActivityHost.inputs host) with
  | .error e => ⟨.error (.record e), host, s⟩
  | .ok input =>
    match s.evaluate logic input with
    | (.error e, s) => ⟨.error e, host, s⟩
    | (.ok output, s) => s.handOver output host

/-- Runs an invocation. It is counted before anything else and until its end. -/
def invoke [ActivityHost κ] (logic : ActivityLogic σ) (host : κ) (s : Session σ) :
    ActivityOutcome κ σ :=
  let s := s.enter
  if s.activity.isCleaned then
    ⟨.error (.transition s.activity.name "eval" ActivityState.cleaned.name), host, s.leave⟩
  else
    let outcome := s.invokeAdmitted logic host
    { outcome with session := outcome.session.leave }

/-- Runs an invocation of a host that keeps its output: the result is the host with the output. -/
def eval (logic : ActivityLogic σ) (ctx : ActivityContext) (s : Session σ) :
    Except Fault ActivityContext × Session σ :=
  let outcome := s.invoke logic ctx
  (outcome.result.map fun _ => outcome.host, outcome.session)

/-- Ends the instance; again does nothing. -/
def cleanup (s : Session σ) : Session σ :=
  if s.activity.isCleaned then s
  else
    let running := s.activity.running
    let s := { s with activity := { s.activity with isCleaned := true } }
    if 0 < running then
      s.report .warn ("Activity cleaned up with " ++ String.ofList (Text.decimal running) ++
        " invocation(s) running")
    else s.report .debug "Activity cleaned up"

end Session

namespace ActivityLogic

/-- Logic that leaves the output as it is. -/
def stub (σ : Type) : ActivityLogic σ := fun _ _ output s => (.ok output, s)

/-- Logic that does nothing but compute an output. -/
def pure (f : (settings input output : Record) → Except Fault Record) : ActivityLogic σ :=
  fun settings input output s => (f settings input output, s)

end ActivityLogic

end ExtensionKit
