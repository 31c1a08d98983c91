import ExtensionKit.Proofs.Trigger.Runs
import Mathlib.Data.List.Forall2

/-!
# What a call does to a trigger

A call can leave a trigger where it is, bind its handlers, ask its source to start or to stop, or end a
life that never started. `Trigger.Moves` says for each of these what becomes of the state and of the
handlers, which bindings are recorded and what the source is asked; `Trigger.moves_step` shows that there
is nothing else. What all moves have in common is proved from this list, without another look at the
operations.
-/

namespace ExtensionKit

/-- The place of a state in the order of a life. -/
def TriggerState.rank : TriggerState → Nat
  | .registered => 0
  | .initialized => 1
  | .started => 2
  | .stopped => 3

/-- Nothing comes after being stopped. -/
theorem TriggerState.eq_stopped_of_rank {state : TriggerState} (h : 3 ≤ state.rank) :
    state = .stopped := by
  cases state with
  | stopped => rfl
  | _ => exact absurd h (by decide)

/-- Bindings for some handlers: one for each, in order, with its settings resolved. -/
def Binds (resolver : Resolver) (c : Contract) : List Handler → List Binding → Prop :=
  List.Forall₂ fun h b => b.handler = h ∧ resolver h.settings c true = .ok b.settings

namespace Trigger

/-! ## What a call can do -/

/-- The moves of a trigger. -/
inductive Moves (t : Trigger) (s : TriggerStep) : Prop where
  /-- nothing that matters happens: the call is refused, fails to bind, fires, or stops again -/
  | stays (state : s.outcome.trigger.state = t.state)
      (handlers : s.outcome.trigger.handlers = t.handlers) (bindings : s.bindings = [])
      (source : s.sourceCalls = [])
  /-- the handlers are bound -/
  | binds (handlers : List Handler) (state : t.state = .registered)
      (next : s.outcome.trigger.state = .initialized)
      (bound : Binds t.resolver t.metadata.handlerSettings handlers s.outcome.trigger.handlers)
      (bindings : s.bindings = [(handlers, s.outcome.trigger.handlers)])
      (source : s.sourceCalls = []) (result : s.outcome.result.isOk = true)
  /-- the source is asked to start -/
  | asksStart (succeeded : Bool) (state : t.state = .initialized)
      (next : s.outcome.trigger.state = if succeeded then .started else .initialized)
      (handlers : s.outcome.trigger.handlers = t.handlers) (bindings : s.bindings = [])
      (source : s.sourceCalls = [.start t.handlers succeeded])
      (result : s.outcome.result.isOk = succeeded)
  /-- the source is asked to stop -/
  | asksStop (succeeded : Bool) (state : t.state = .started)
      (next : s.outcome.trigger.state = if succeeded then .stopped else .started)
      (handlers : s.outcome.trigger.handlers = t.handlers) (bindings : s.bindings = [])
      (source : s.sourceCalls = [.stop succeeded]) (result : s.outcome.result.isOk = succeeded)
  /-- the trigger is stopped before its source is started -/
  | abandons (state : t.state = .registered ∨ t.state = .initialized)
      (next : s.outcome.trigger.state = .stopped)
      (handlers : s.outcome.trigger.handlers = t.handlers) (bindings : s.bindings = [])
      (source : s.sourceCalls = []) (result : s.outcome.result.isOk = true)

/-- Bindings that succeed are of all handlers in order. -/
theorem binds_of_bindAll {resolver : Resolver} {c : Contract} {handlers : List Handler}
    {bindings : List Binding} (h : bindAll resolver c handlers = .ok bindings) :
    Binds resolver c handlers bindings := by
  induction handlers generalizing bindings with
  | nil =>
    obtain rfl := Except.ok.inj h
    exact .nil
  | cons handler rest ih =>
    rw [bindAll] at h
    split at h
    · cases h
    · next settings hsettings =>
      split at h
      · cases h
      · next bound hbound =>
        obtain rfl := Except.ok.inj h
        exact .cons ⟨rfl, hsettings⟩ (ih hbound)

theorem moves_bindHandlers (t : Trigger) (parent : Logger) (handlers : List Handler) :
    Moves t (t.step (.bindHandlers parent handlers)) := by
  by_cases hstate : t.state = .registered
  · rcases hbind : bindAll t.resolver t.metadata.handlerSettings handlers with ⟨h, e⟩ | bindings
    · simp only [step, perform, bindHandlers, hstate, ne_eq, not_true, if_false, hbind]
      exact .stays hstate.symm rfl rfl rfl
    · simp only [step, perform, bindHandlers, hstate, ne_eq, not_true, if_false, hbind]
      exact .binds handlers hstate rfl (binds_of_bindAll hbind) rfl rfl rfl
  · simp only [step, perform, bindHandlers, if_pos hstate]
    exact .stays rfl rfl rfl rfl

theorem moves_start (t : Trigger) (answer : Except Fault Unit) :
    Moves t (t.step (.start answer)) := by
  by_cases hstate : t.state = .initialized
  · cases answer with
    | error e =>
      simp only [step, perform, start, hstate, ne_eq, not_true, if_false]
      exact .asksStart false hstate hstate rfl rfl rfl rfl
    | ok _ =>
      simp only [step, perform, start, hstate, ne_eq, not_true, if_false]
      exact .asksStart true hstate rfl rfl rfl rfl rfl
  · simp only [step, perform, start, if_pos hstate]
    exact .stays rfl rfl rfl rfl

theorem moves_fire (t : Trigger) (name : String) (event : Members) :
    Moves t (t.step (.fire name event)) := by
  by_cases hstate : t.state = .started
  · simp only [step, perform, fire, hstate, ne_eq, not_true, if_false]
    split
    · exact .stays rfl rfl rfl rfl
    · split
      · exact .stays rfl rfl rfl rfl
      · exact .stays rfl rfl rfl rfl
  · simp only [step, perform, fire, if_pos hstate]
    exact .stays rfl rfl rfl rfl

theorem moves_stop (t : Trigger) (answer : Except Fault Unit) :
    Moves t (t.step (.stop answer)) := by
  cases hstate : t.state with
  | stopped =>
    simp only [step, perform, stop, hstate]
    exact .stays rfl rfl rfl rfl
  | started =>
    cases answer with
    | error e =>
      simp only [step, perform, stop, hstate]
      exact .asksStop false hstate hstate rfl rfl rfl rfl
    | ok _ =>
      simp only [step, perform, stop, hstate]
      exact .asksStop true hstate rfl rfl rfl rfl rfl
  | registered =>
    simp only [step, perform, stop, hstate]
    exact .abandons (.inl hstate) rfl rfl rfl rfl rfl
  | initialized =>
    simp only [step, perform, stop, hstate]
    exact .abandons (.inr hstate) rfl rfl rfl rfl rfl

/-- **There are no other moves.** -/
theorem moves_step (t : Trigger) (call : TriggerCall) : Moves t (t.step call) := by
  cases call with
  | bindHandlers parent handlers => exact t.moves_bindHandlers parent handlers
  | start answer => exact t.moves_start answer
  | fire name event => exact t.moves_fire name event
  | stop answer => exact t.moves_stop answer

/-! ## What a move keeps -/

/-- **No move leads back.** -/
theorem Moves.rank_le {t : Trigger} {s : TriggerStep} (h : Moves t s) :
    t.state.rank ≤ s.outcome.trigger.state.rank := by
  cases h with
  | stays state handlers bindings source => exact Nat.le_of_eq (congrArg _ state.symm)
  | binds handlers state next bound bindings source result =>
    rw [state, next]
    decide
  | asksStart succeeded state next handlers bindings source result =>
    rw [state, next]
    cases succeeded <;> decide
  | asksStop succeeded state next handlers bindings source result =>
    rw [state, next]
    cases succeeded <;> decide
  | abandons state next handlers bindings source result =>
    rw [next]
    rcases state with state | state <;> rw [state] <;> decide

/-- **A call that fails changes neither the state nor the bound handlers.** -/
theorem Moves.unchanged {t : Trigger} {s : TriggerStep} (h : Moves t s)
    (failed : s.outcome.result.isOk = false) :
    s.outcome.trigger.state = t.state ∧ s.outcome.trigger.handlers = t.handlers := by
  cases h with
  | stays state handlers bindings source => exact ⟨state, handlers⟩
  | binds handlers state next bound bindings source result =>
    rw [result] at failed
    cases failed
  | asksStart succeeded state next handlers bindings source result =>
    obtain rfl := result.symm.trans failed
    exact ⟨next.trans state.symm, handlers⟩
  | asksStop succeeded state next handlers bindings source result =>
    obtain rfl := result.symm.trans failed
    exact ⟨next.trans state.symm, handlers⟩
  | abandons state next handlers bindings source result =>
    rw [result] at failed
    cases failed

/-- No call changes what the trigger took over from its type. -/
theorem type_perform (t : Trigger) (call : TriggerCall) :
    (t.perform call).trigger.resolver = t.resolver ∧
      (t.perform call).trigger.metadata = t.metadata := by
  cases call with
  | bindHandlers parent handlers =>
    simp only [perform, bindHandlers]
    split
    · exact ⟨rfl, rfl⟩
    · split <;> exact ⟨rfl, rfl⟩
  | start answer =>
    simp only [perform, start]
    split
    · exact ⟨rfl, rfl⟩
    · split <;> exact ⟨rfl, rfl⟩
  | fire name event =>
    simp only [perform, fire]
    split
    · exact ⟨rfl, rfl⟩
    · split
      · exact ⟨rfl, rfl⟩
      · split <;> exact ⟨rfl, rfl⟩
  | stop answer =>
    simp only [perform, stop]
    split
    · exact ⟨rfl, rfl⟩
    · split <;> exact ⟨rfl, rfl⟩
    · exact ⟨rfl, rfl⟩

/-- **Handlers are only called by a started trigger.** -/
theorem started_of_callHandler {t : Trigger} {call : TriggerCall} {b : Binding} {data : Members}
    (h : .callHandler b data ∈ (t.perform call).effects) : t.state = .started := by
  cases call with
  | bindHandlers parent handlers =>
    simp only [perform, bindHandlers] at h
    split at h
    · cases h
    · split at h <;> simp [TriggerOutcome.map] at h
  | start answer =>
    simp only [perform, start] at h
    split at h
    · cases h
    · split at h <;> simp [TriggerOutcome.map] at h
  | fire name event =>
    by_contra hstate
    simp only [perform, fire, if_pos hstate] at h
    cases h
  | stop answer =>
    simp only [perform, stop] at h
    split at h
    · cases h
    · split at h <;> simp [TriggerOutcome.map] at h
    · cases h

/-- A call asks the source for one thing at most. -/
theorem Moves.sourceCalls_le {t : Trigger} {s : TriggerStep} (h : Moves t s) :
    s.sourceCalls.length ≤ 1 := by
  cases h with
  | stays state handlers bindings source => exact source ▸ Nat.zero_le 1
  | binds handlers state next bound bindings source result => exact source ▸ Nat.zero_le 1
  | asksStart succeeded state next handlers bindings source result => exact source ▸ Nat.le_refl 1
  | asksStop succeeded state next handlers bindings source result => exact source ▸ Nat.le_refl 1
  | abandons state next handlers bindings source result => exact source ▸ Nat.zero_le 1

end Trigger

end ExtensionKit
