import ExtensionKit.Proofs.Trigger.Runs

/-!
# After a failed binding

When handlers cannot be bound, the trigger stays registered, but it has already taken over the logger of
the attempt. Nobody can tell: before handlers are bound no operation reports anything, and binding them
replaces the logger. `Trigger.Alike` relates two triggers that differ in nothing but such an idle logger.
Alike triggers have alike outcomes whatever is called (`Trigger.Alike.perform`), so no run tells them
apart (`Trigger.Alike.history`).
-/

namespace ExtensionKit

/-- What is seen of a step from outside the trigger: its effects, in order, and its result. -/
def TriggerStep.visible (s : TriggerStep) : List TriggerEffect × Except Fault (Option Members) :=
  (s.outcome.effects, s.outcome.result)

namespace Trigger

/-- The second trigger is the first, but for its logger if that is idle: before handlers are bound, and
after the end. -/
inductive Alike (t : Trigger) : Trigger → Prop where
  | same : Alike t t
  | idle (logger : Logger) (state : t.state = .registered ∨ t.state = .stopped) :
      Alike t { t with logger := logger }

theorem Alike.state_eq {t u : Trigger} (h : Alike t u) : u.state = t.state := by
  cases h <;> rfl

theorem Alike.handlers_eq {t u : Trigger} (h : Alike t u) : u.handlers = t.handlers := by
  cases h <;> rfl

end Trigger

/-- Outcomes with the same effects and the same result, that leave alike triggers. -/
structure TriggerOutcome.Alike (o p : TriggerOutcome α) : Prop where
  /-- the effects are the same -/
  effects : p.effects = o.effects
  /-- the result is the same -/
  result : p.result = o.result
  /-- the triggers are alike -/
  trigger : o.trigger.Alike p.trigger

namespace TriggerOutcome

theorem Alike.refl (o : TriggerOutcome α) : o.Alike o := ⟨rfl, rfl, .same⟩

theorem Alike.map {o p : TriggerOutcome α} (h : o.Alike p) (f : α → β) : (o.map f).Alike (p.map f) :=
  ⟨h.effects, congrArg (Except.map f) h.result, h.trigger⟩

end TriggerOutcome

namespace Trigger

/-! ## Calls of a trigger with an idle logger -/

section

variable {t : Trigger} {logger : Logger} (state : t.state = .registered ∨ t.state = .stopped)

include state

theorem alike_refuse (action : String) :
    (t.refuse action : TriggerOutcome α).Alike ({ t with logger := logger }.refuse action) :=
  ⟨rfl, rfl, .idle logger state⟩

/-- Binding handlers replaces the logger, whether it succeeds or not. The new one is made from the parent
logger alone. -/
theorem alike_bindHandlers (parent : Logger) (handlers : List Handler) :
    (t.bindHandlers parent handlers).Alike
      ({ t with logger := logger }.bindHandlers parent handlers) := by
  rcases state with state | state
  · have heq : { t with logger := logger }.bindHandlers parent handlers =
        t.bindHandlers parent handlers := by
      simp only [bindHandlers, state, ne_eq, not_true, if_false]
    rw [heq]
    exact .refl _
  · have hstate : t.state ≠ .registered := state ▸ nofun
    rw [bindHandlers, bindHandlers, if_pos hstate, if_pos hstate]
    exact alike_refuse (.inr state) _

theorem alike_start (answer : Except Fault Unit) :
    (t.start answer).Alike ({ t with logger := logger }.start answer) := by
  have hstate : t.state ≠ .initialized := by
    rcases state with state | state <;> exact state ▸ nofun
  rw [start.eq_def, start.eq_def, if_pos hstate, if_pos hstate]
  exact alike_refuse state _

theorem alike_fire (name : String) (event : Members) :
    (t.fire name event).Alike ({ t with logger := logger }.fire name event) := by
  have hstate : t.state ≠ .started := by
    rcases state with state | state <;> exact state ▸ nofun
  rw [fire, fire, if_pos hstate, if_pos hstate]
  exact alike_refuse state _

/-- A trigger that ends before its source is started reports nothing. What the call does is decided by the
state alone. -/
theorem alike_stop (answer : Except Fault Unit) :
    (t.stop answer).Alike ({ t with logger := logger }.stop answer) := by
  obtain ⟨id, metadata, resolver, settings, handlers, own, now⟩ := t
  change now = .registered ∨ now = .stopped at state
  rcases state with rfl | rfl
  · exact ⟨rfl, rfl, .idle logger (.inr rfl)⟩
  · exact ⟨rfl, rfl, .idle logger (.inr rfl)⟩

end

/-! ## Runs of alike triggers -/

/-- **Alike triggers have alike outcomes.** -/
theorem Alike.perform {t u : Trigger} (h : Alike t u) (call : TriggerCall) :
    (t.perform call).Alike (u.perform call) := by
  cases h with
  | same => exact .refl _
  | idle logger state =>
    cases call with
    | bindHandlers parent handlers => exact (alike_bindHandlers state parent handlers).map _
    | start answer => exact (alike_start state answer).map _
    | fire name event => exact (alike_fire state name event).map _
    | stop answer => exact (alike_stop state answer).map _

/-- **Triggers that are alike stay alike** in every run. -/
theorem Alike.run {t u : Trigger} (h : Alike t u) (calls : List TriggerCall) :
    Alike (t.run calls) (u.run calls) := by
  induction calls generalizing t u with
  | nil => exact h
  | cons call rest ih => exact ih (h.perform call).trigger

/-- **No run tells alike triggers apart.** -/
theorem Alike.history {t u : Trigger} (h : Alike t u) (calls : List TriggerCall) :
    (u.history calls).map TriggerStep.visible = (t.history calls).map TriggerStep.visible := by
  induction calls generalizing t u with
  | nil => rfl
  | cons call rest ih =>
    have houtcome := h.perform call
    have hstep : (u.step call).visible = (t.step call).visible :=
      Prod.ext houtcome.effects houtcome.result
    rw [Trigger.history, Trigger.history, List.map_cons, List.map_cons, hstep, ih houtcome.trigger]

/-! ## The main statement -/

/-- A binding that fails leaves the trigger as it was, but for the idle logger. -/
theorem alike_of_failed {t : Trigger} {parent : Logger} {handlers : List Handler}
    (failed : (t.bindHandlers parent handlers).result.isOk = false) :
    Alike t (t.bindHandlers parent handlers).trigger := by
  by_cases hstate : t.state = .registered
  · rw [bindHandlers, if_neg (absurd hstate)] at failed ⊢
    rcases hbind : bindAll t.resolver t.metadata.handlerSettings handlers with ⟨h, e⟩ | bindings
    · simp only [hbind]
      exact .idle _ (.inl hstate)
    · simp only [hbind] at failed
      cases failed
  · rw [bindHandlers, if_pos hstate]
    exact .same

/-- **A binding that fails is invisible.** Whatever is called afterwards, every call has the same effects
(what is asked of the source, what handlers are given, and what is reported by which logger) and the same
result as if there had been no such attempt, and leads to the same state with the same handlers. -/
theorem failedBinding_invisible {t : Trigger} {parent : Logger} {handlers : List Handler}
    (failed : (t.bindHandlers parent handlers).result.isOk = false) (calls : List TriggerCall) :
    let u := (t.bindHandlers parent handlers).trigger
    (u.history calls).map TriggerStep.visible = (t.history calls).map TriggerStep.visible ∧
      (u.run calls).state = (t.run calls).state ∧ (u.run calls).handlers = (t.run calls).handlers :=
  have halike := alike_of_failed failed
  ⟨halike.history calls, (halike.run calls).state_eq, (halike.run calls).handlers_eq⟩

/-- The attempt of another parent leaves its logger behind, and is as invisible as any. -/
theorem failedBinding_invisible_otherLogger :
    let type := TriggerType.ofDefinition "mail"
      ⟨"inbox", ⟨[], .nil⟩, ⟨[⟨"folder", .string⟩], List.pairwise_singleton _ _⟩, ⟨[], .nil⟩⟩
    let good : Handler := ⟨"archive", [("folder", .string "old")], fun _ => .ok []⟩
    let bad : Handler := ⟨"drop", [], fun _ => .ok []⟩
    let calls : List TriggerCall := [.start (.ok ()), .bindHandlers .root [good], .start (.ok ())]
    ∃ t, type.newInstance "inbox" [] = .ok t ∧
      let attempt := t.bindHandlers (Logger.root.child "other") [good, bad]
      attempt.result.isOk = false ∧ attempt.trigger.logger ≠ t.logger ∧
        (attempt.trigger.history calls).map TriggerStep.visible =
          (t.history calls).map TriggerStep.visible := by
  intro type good bad calls
  have created : type.newInstance "inbox" [] =
      .ok ⟨"inbox", type.metadata, .byFields, .new type.metadata.settings, [], .root, .registered⟩ :=
    rfl
  exact ⟨_, created, rfl, by decide, (failedBinding_invisible rfl calls).1⟩

end Trigger

end ExtensionKit
