import ExtensionKit.Artifact.Trigger

/-!
# Runs of a trigger

A run is any sequence of calls of the four operations. What the source answers, should an operation ask
it, is part of the call, so a run ranges over all sources: each start and each stop may succeed or fail.

`Trigger.history` records every call with its outcome. From the effects of a history one reads off the
calls of the source (`sourceCalls`) and the bindings that were made (`bindingsOf`).
-/

namespace ExtensionKit

/-- A call of an operation. -/
inductive TriggerCall where
  /-- binds handlers -/
  | bindHandlers (parent : Logger) (handlers : List Handler)
  /-- starts the source, which gives this answer if it is asked -/
  | start (answer : Except Fault Unit)
  /-- fires an event at a handler -/
  | fire (name : String) (event : Members)
  /-- stops the source, which gives this answer if it is asked -/
  | stop (answer : Except Fault Unit)

/-- Whether the source answers well. Calls that do not ask it count as answered well. -/
def TriggerCall.answersWell : TriggerCall → Bool
  | .start answer => answer.isOk
  | .stop answer => answer.isOk
  | _ => true

/-- The outcome with its result mapped. -/
def TriggerOutcome.map (f : α → β) (o : TriggerOutcome α) : TriggerOutcome β :=
  ⟨o.trigger, o.effects, o.result.map f⟩

/-- A call together with its outcome. Only a delivered event has data for a result. -/
structure TriggerStep where
  /-- the call -/
  call : TriggerCall
  /-- its outcome -/
  outcome : TriggerOutcome (Option Members)

/-- A call of the source. -/
inductive SourceCall where
  /-- it is started with these handlers -/
  | start (handlers : List Binding) (succeeded : Bool)
  /-- it is stopped -/
  | stop (succeeded : Bool)

namespace SourceCall

/-- Whether the source was started. -/
def startedWell : SourceCall → Bool
  | .start _ succeeded => succeeded
  | .stop _ => false

/-- Whether the source was stopped. -/
def stoppedWell : SourceCall → Bool
  | .start _ _ => false
  | .stop succeeded => succeeded

/-- The call of the source that an effect is, if it is one. -/
def ofEffect? (succeeded : Bool) : TriggerEffect → Option SourceCall
  | .startSource handlers => some (.start handlers succeeded)
  | .stopSource => some (.stop succeeded)
  | .report _ => none
  | .callHandler _ _ => none

end SourceCall

namespace TriggerStep

/-- The calls of the source in a step. -/
def sourceCalls (s : TriggerStep) : List SourceCall :=
  s.outcome.effects.filterMap (SourceCall.ofEffect? s.call.answersWell)

/-- The handlers that a step was given to bind with the bindings it made, if it made them. -/
def bindings (s : TriggerStep) : List (List Handler × List Binding) :=
  match s.call, s.outcome.result with
  | .bindHandlers _ handlers, .ok _ => [(handlers, s.outcome.trigger.handlers)]
  | _, _ => []

end TriggerStep

/-- The calls of the source in a history, in order. -/
def sourceCalls (log : List TriggerStep) : List SourceCall := log.flatMap TriggerStep.sourceCalls

/-- How often the source was started in a history. -/
def timesStarted (log : List TriggerStep) : Nat := (sourceCalls log).countP SourceCall.startedWell

/-- How often the source was stopped in a history. -/
def timesStopped (log : List TriggerStep) : Nat := (sourceCalls log).countP SourceCall.stoppedWell

/-- The bindings made in a history, in order. -/
def bindingsOf (log : List TriggerStep) : List (List Handler × List Binding) :=
  log.flatMap TriggerStep.bindings

namespace Trigger

/-- Makes a call. -/
def perform (t : Trigger) : TriggerCall → TriggerOutcome (Option Members)
  | .bindHandlers parent handlers => (t.bindHandlers parent handlers).map fun _ => none
  | .start answer => (t.start answer).map fun _ => none
  | .fire name event => (t.fire name event).map some
  | .stop answer => (t.stop answer).map fun _ => none

/-- A call as a step. -/
def step (t : Trigger) (call : TriggerCall) : TriggerStep := ⟨call, t.perform call⟩

/-- The trigger after some calls. -/
def run (t : Trigger) (calls : List TriggerCall) : Trigger :=
  calls.foldl (fun t call => (t.perform call).trigger) t

/-- The steps of some calls. -/
def history : Trigger → List TriggerCall → List TriggerStep
  | _, [] => []
  | t, call :: rest => t.step call :: history (t.perform call).trigger rest

/-- A run goes on where another ended. -/
theorem run_append (t : Trigger) (calls more : List TriggerCall) :
    t.run (calls ++ more) = (t.run calls).run more :=
  List.foldl_append ..

end Trigger

/-! ## One step more -/

theorem sourceCalls_concat (log : List TriggerStep) (s : TriggerStep) :
    sourceCalls (log ++ [s]) = sourceCalls log ++ s.sourceCalls := by
  rw [sourceCalls, List.flatMap_append, List.flatMap_singleton]
  rfl

theorem bindingsOf_concat (log : List TriggerStep) (s : TriggerStep) :
    bindingsOf (log ++ [s]) = bindingsOf log ++ s.bindings := by
  rw [bindingsOf, List.flatMap_append, List.flatMap_singleton]
  rfl

theorem timesStarted_concat (log : List TriggerStep) (s : TriggerStep) :
    timesStarted (log ++ [s]) =
      timesStarted log + s.sourceCalls.countP SourceCall.startedWell := by
  rw [timesStarted, sourceCalls_concat, List.countP_append]
  rfl

theorem timesStopped_concat (log : List TriggerStep) (s : TriggerStep) :
    timesStopped (log ++ [s]) =
      timesStopped log + s.sourceCalls.countP SourceCall.stoppedWell := by
  rw [timesStopped, sourceCalls_concat, List.countP_append]
  rfl

end ExtensionKit
