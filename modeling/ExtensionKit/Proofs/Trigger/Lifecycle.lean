import ExtensionKit.Proofs.Trigger.Moves

/-!
# The life of a trigger

A trigger goes from registered to initialized, started and stopped, and never back. `Trigger.Account`
ties its state to its history: which bindings were made, and how often the source was started and stopped
successfully. Every move keeps the account, so every run does, and the main statement reads the safety
of all runs off the account of the run so far and the move that comes next.
-/

namespace ExtensionKit

namespace Trigger

/-! ## The account of a history -/

/-- How often the source was started and stopped, by the state of the trigger. -/
def Tally (started stopped : Nat) : TriggerState → Prop
  | .registered => started = 0 ∧ stopped = 0
  | .initialized => started = 0 ∧ stopped = 0
  | .started => started = 1 ∧ stopped = 0
  | .stopped => started ≤ 1 ∧ stopped = started

/-- What the history of an instance has to do with its state. -/
structure Account (type : TriggerType) (t : Trigger) (log : List TriggerStep) : Prop where
  /-- the resolver is that of the type -/
  resolver : t.resolver = type.resolver
  /-- the metadata are those of the type -/
  metadata : t.metadata = type.metadata
  /-- handlers are bound at most once -/
  once : (bindingsOf log).length ≤ 1
  /-- before that, there are no bindings -/
  unbound : t.state = .registered → bindingsOf log = []
  /-- after it, the bindings are those of the trigger, until it is stopped -/
  bound : t.state = .initialized ∨ t.state = .started →
    ∃ handlers, bindingsOf log = [(handlers, t.handlers)] ∧
      Binds type.resolver type.metadata.handlerSettings handlers t.handlers
  /-- the calls of the source add up -/
  tally : Tally (timesStarted log) (timesStopped log) t.state

theorem account_new {type : TriggerType} {id : String} {raw : Members} {t : Trigger}
    (created : type.newInstance id raw = .ok t) : Account type t [] := by
  rw [TriggerType.newInstance] at created
  split at created
  · cases created
  · obtain rfl := Except.ok.inj created
    exact {
      resolver := rfl
      metadata := rfl
      once := Nat.zero_le 1
      unbound := fun _ => rfl
      bound := fun h => by rcases h with h | h <;> cases h
      tally := ⟨rfl, rfl⟩ }

/-- **Every move keeps the tally.** -/
theorem Moves.tally {t : Trigger} {s : TriggerStep} (h : Moves t s) {started stopped : Nat}
    (htally : Tally started stopped t.state) :
    Tally (started + s.sourceCalls.countP SourceCall.startedWell)
      (stopped + s.sourceCalls.countP SourceCall.stoppedWell) s.outcome.trigger.state := by
  cases h with
  | stays state handlers bindings source =>
    rw [source, state]
    exact htally
  | binds handlers state next bound bindings source result =>
    rw [state] at htally
    rw [source, next]
    exact htally
  | asksStart succeeded state next handlers bindings source result =>
    rw [state] at htally
    obtain ⟨rfl, rfl⟩ := htally
    rw [source, next]
    cases succeeded with
    | false => exact ⟨rfl, rfl⟩
    | true => exact ⟨rfl, rfl⟩
  | asksStop succeeded state next handlers bindings source result =>
    rw [state] at htally
    obtain ⟨rfl, rfl⟩ := htally
    rw [source, next]
    cases succeeded with
    | false => exact ⟨rfl, rfl⟩
    | true => exact ⟨Nat.le_refl 1, rfl⟩
  | abandons state next handlers bindings source result =>
    have hnone : Tally started stopped .registered := by
      rcases state with state | state <;> rwa [state] at htally
    obtain ⟨rfl, rfl⟩ := hnone
    rw [source, next]
    exact ⟨Nat.zero_le 1, rfl⟩

/-- A move either binds the handlers of a registered trigger, or makes no bindings, leaves those of the
trigger alone, and does not lead to a state before or after binding from one that is not. -/
theorem Moves.bindings_cases {t : Trigger} {s : TriggerStep} (h : Moves t s) :
    (∃ handlers, t.state = .registered ∧
      s.bindings = [(handlers, s.outcome.trigger.handlers)] ∧
      Binds t.resolver t.metadata.handlerSettings handlers s.outcome.trigger.handlers ∧
      s.outcome.trigger.state = .initialized) ∨
    (s.bindings = [] ∧ s.outcome.trigger.handlers = t.handlers ∧
      (s.outcome.trigger.state = .registered → t.state = .registered) ∧
      (s.outcome.trigger.state = .initialized ∨ s.outcome.trigger.state = .started →
        t.state = .initialized ∨ t.state = .started)) := by
  cases h with
  | binds handlers state next bound bindings source result =>
    exact .inl ⟨handlers, state, bindings, bound, next⟩
  | stays state handlers bindings source =>
    rw [state]
    exact .inr ⟨bindings, handlers, fun h => h, fun h => h⟩
  | asksStart succeeded state next handlers bindings source result =>
    refine .inr ⟨bindings, handlers, fun h => ?_, fun _ => .inl state⟩
    cases succeeded <;> cases next.symm.trans h
  | asksStop succeeded state next handlers bindings source result =>
    refine .inr ⟨bindings, handlers, fun h => ?_, fun _ => .inr state⟩
    cases succeeded <;> cases next.symm.trans h
  | abandons state next handlers bindings source result =>
    rw [next]
    exact .inr ⟨bindings, handlers, nofun, nofun⟩

/-- **Every call keeps the account.** -/
theorem Account.concat {type : TriggerType} {t : Trigger} {log : List TriggerStep}
    (h : Account type t log) (call : TriggerCall) :
    Account type (t.perform call).trigger (log ++ [t.step call]) := by
  obtain ⟨hresolver, hmetadata⟩ := t.type_perform call
  have hmove : Moves t (t.step call) := t.moves_step call
  have htally : Tally (timesStarted (log ++ [t.step call])) (timesStopped (log ++ [t.step call]))
      (t.perform call).trigger.state := by
    rw [timesStarted_concat, timesStopped_concat]
    exact hmove.tally h.tally
  rcases hmove.bindings_cases with
    ⟨handlers, state, bindings, bound, next⟩ | ⟨bindings, handlers, fresh, running⟩
  · -- the first bindings of the history
    have hlog : bindingsOf (log ++ [t.step call]) =
        [(handlers, (t.perform call).trigger.handlers)] := by
      rw [bindingsOf_concat, h.unbound state, bindings]
      rfl
    rw [h.resolver, h.metadata] at bound
    exact {
      resolver := hresolver.trans h.resolver
      metadata := hmetadata.trans h.metadata
      once := hlog ▸ Nat.le_refl 1
      unbound := fun state' => nomatch next.symm.trans state'
      bound := fun _ => ⟨handlers, hlog, bound⟩
      tally := htally }
  · have hlog : bindingsOf (log ++ [t.step call]) = bindingsOf log := by
      rw [bindingsOf_concat, bindings, List.append_nil]
    exact {
      resolver := hresolver.trans h.resolver
      metadata := hmetadata.trans h.metadata
      once := hlog ▸ h.once
      unbound := fun state' => hlog.trans (h.unbound (fresh state'))
      bound := fun state' => by
        rw [hlog]
        exact handlers.symm ▸ h.bound (running state')
      tally := htally }

/-- The account of a trigger goes on through every run. -/
theorem Account.history {type : TriggerType} {t : Trigger} {log : List TriggerStep}
    (h : Account type t log) (calls : List TriggerCall) :
    Account type (t.run calls) (log ++ t.history calls) := by
  induction calls generalizing t log with
  | nil =>
    rw [Trigger.history, List.append_nil]
    exact h
  | cons call rest ih =>
    rw [Trigger.history, List.append_cons]
    exact ih (h.concat call)

/-- No run leads back. -/
theorem rank_run_le (t : Trigger) (calls : List TriggerCall) :
    t.state.rank ≤ (t.run calls).state.rank := by
  induction calls generalizing t with
  | nil => exact Nat.le_refl _
  | cons call rest ih => exact Nat.le_trans (t.moves_step call).rank_le (ih _)

/-! ## The main statement -/

/-- What a move asks of the source, the account of the run so far allows. -/
theorem Account.start_allowed {type : TriggerType} {t : Trigger} {log : List TriggerStep}
    (h : Account type t log) {s : TriggerStep} (hmove : Moves t s) {bs : List Binding}
    {succeeded : Bool} (hcall : .start bs succeeded ∈ s.sourceCalls) :
    t.state = .initialized ∧ timesStarted log = 0 ∧ ∃ handlers,
      bindingsOf log = [(handlers, bs)] ∧
        Binds type.resolver type.metadata.handlerSettings handlers bs := by
  have htally := h.tally
  cases hmove with
  | asksStart succeeded state next handlers bindings source result =>
    rw [source] at hcall
    cases List.mem_singleton.mp hcall
    rw [state] at htally
    exact ⟨state, htally.1, h.bound (.inl state)⟩
  | asksStop succeeded state next handlers bindings source result =>
    rw [source] at hcall
    cases List.mem_singleton.mp hcall
  | stays state handlers bindings source => exact nomatch source ▸ hcall
  | binds handlers state next bound bindings source result => exact nomatch source ▸ hcall
  | abandons state next handlers bindings source result => exact nomatch source ▸ hcall

/-- A source is stopped once at most, after it was started. -/
theorem Account.stop_allowed {type : TriggerType} {t : Trigger} {log : List TriggerStep}
    (h : Account type t log) {s : TriggerStep} (hmove : Moves t s) {succeeded : Bool}
    (hcall : .stop succeeded ∈ s.sourceCalls) :
    timesStarted log = 1 ∧ timesStopped log = 0 := by
  have htally := h.tally
  cases hmove with
  | asksStop succeeded state next handlers bindings source result =>
    rw [state] at htally
    exact htally
  | asksStart succeeded state next handlers bindings source result =>
    rw [source] at hcall
    cases List.mem_singleton.mp hcall
  | stays state handlers bindings source => exact nomatch source ▸ hcall
  | binds handlers state next bound bindings source result => exact nomatch source ▸ hcall
  | abandons state next handlers bindings source result => exact nomatch source ▸ hcall

/-- A tally has one start at most, and as many stops once the trigger is stopped. -/
theorem Tally.started_le {started stopped : Nat} {state : TriggerState}
    (h : Tally started stopped state) : started ≤ 1 := by
  cases state with
  | registered => exact h.1 ▸ Nat.zero_le 1
  | initialized => exact h.1 ▸ Nat.zero_le 1
  | started => exact h.1 ▸ Nat.le_refl 1
  | stopped => exact h.1

/-- **The life of a trigger is safe.** After any calls of an instance, whatever its source answered, and
whichever call comes next:

* the state is behind that of any longer run, and a stopped trigger stays stopped;
* the source was started at most once, and is started only if it never was and the trigger is not
  stopped, with the bindings of the one list of handlers that was bound;
* the source is stopped only if it was started and never stopped, and a stopped trigger has stopped its
  source as often as it started it;
* a handler is called only if the trigger is started;
* a call that fails leaves the state and the bindings alone. -/
theorem lifecycle_safe {type : TriggerType} {id : String} {raw : Members} {t : Trigger}
    (created : type.newInstance id raw = .ok t) (calls : List TriggerCall) (next : TriggerCall) :
    let now := t.run calls
    let log := t.history calls
    let s := now.step next
    (∀ more, now.state.rank ≤ (t.run (calls ++ more)).state.rank ∧
      (now.state = .stopped → (t.run (calls ++ more)).state = .stopped)) ∧
    (timesStarted log ≤ 1 ∧ (bindingsOf log).length ≤ 1 ∧ s.sourceCalls.length ≤ 1 ∧
      ∀ bindings succeeded, .start bindings succeeded ∈ s.sourceCalls →
        timesStarted log = 0 ∧ now.state ≠ .stopped ∧ ∃ handlers,
          bindingsOf log = [(handlers, bindings)] ∧
            Binds type.resolver type.metadata.handlerSettings handlers bindings) ∧
    ((∀ succeeded, .stop succeeded ∈ s.sourceCalls → timesStarted log = 1 ∧ timesStopped log = 0) ∧
      (now.state = .stopped → timesStopped log = timesStarted log)) ∧
    (∀ binding data, .callHandler binding data ∈ s.outcome.effects → now.state = .started) ∧
    (s.outcome.result.isOk = false →
      s.outcome.trigger.state = now.state ∧ s.outcome.trigger.handlers = now.handlers) := by
  intro now log s
  have haccount : Account type now log := (account_new created).history calls
  have hmove : Moves now s := now.moves_step next
  refine ⟨fun more => ?_, ⟨haccount.tally.started_le, haccount.once, hmove.sourceCalls_le, ?_⟩,
    ⟨fun succeeded hcall => haccount.stop_allowed hmove hcall, fun hstate => ?_⟩,
    fun binding data hcall => started_of_callHandler hcall, hmove.unchanged⟩
  · have hrank : now.state.rank ≤ (t.run (calls ++ more)).state.rank := by
      rw [run_append]
      exact now.rank_run_le more
    refine ⟨hrank, fun hstate => ?_⟩
    rw [hstate] at hrank
    exact TriggerState.eq_stopped_of_rank hrank
  · intro bindings succeeded hcall
    obtain ⟨hstate, hstarted, hbound⟩ := haccount.start_allowed hmove hcall
    exact ⟨hstarted, hstate ▸ nofun, hbound⟩
  · have htally := haccount.tally
    rw [hstate] at htally
    exact htally.2

/-- A source that refuses to start once is started with the same bindings the second time, which are
those of the one handler. -/
theorem lifecycle_safe_refusedStart :
    let type := TriggerType.ofDefinition "mail"
      ⟨"inbox", ⟨[], .nil⟩, ⟨[⟨"folder", .string⟩], List.pairwise_singleton _ _⟩, ⟨[], .nil⟩⟩
    let handler : Handler := ⟨"archive", [("folder", .string "old")], fun _ => .ok []⟩
    let calls : List TriggerCall :=
      [.bindHandlers .root [handler], .start (.error (.handlerNotFound "archive"))]
    ∃ t, type.newInstance "inbox" [] = .ok t ∧
      ∃ bindings, ((t.run calls).step (.start (.ok ()))).sourceCalls = [.start bindings true] ∧
        timesStarted (t.history calls) = 0 ∧ ∃ handlers,
          bindingsOf (t.history calls) = [(handlers, bindings)] ∧
            Binds type.resolver type.metadata.handlerSettings handlers bindings := by
  intro type handler calls
  have created : type.newInstance "inbox" [] =
      .ok ⟨"inbox", type.metadata, .byFields, .new type.metadata.settings, [], .root, .registered⟩ :=
    rfl
  refine ⟨_, created, _, rfl, ?_⟩
  obtain ⟨-, ⟨-, -, -, hstart⟩, -⟩ := lifecycle_safe created calls (.start (.ok ()))
  obtain ⟨hnever, -, hbound⟩ := hstart _ true (List.mem_singleton.mpr rfl)
  exact ⟨hnever, hbound⟩

end Trigger

end ExtensionKit
