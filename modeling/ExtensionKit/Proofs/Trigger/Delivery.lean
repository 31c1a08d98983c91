import ExtensionKit.Proofs.Record.Absence
import ExtensionKit.Proofs.Record.Runs
import ExtensionKit.Proofs.Trigger.Lifecycle

/-!
# The delivery of events

An event that is fired at a started trigger meets one of three fates (`Trigger.Fired`). If no handler has
the name, that is the answer, and the event is not looked at. Else, if the output contract refuses the
event, no handler is called. Else the first handler of the name is called, once, and its answer is the
answer.

What the handler is given *renders* the event (`Renders`): it has all declared names and no others, with a
value for each, zero where the event has none, and it renders itself.
-/

namespace ExtensionKit

/-! ## What a handler is given -/

/-- The data have a value for every field of a contract, taken from an event, and nothing else. -/
structure Renders (c : Contract) (event data : Members) : Prop where
  /-- the keys are the declared names, in order -/
  keys : data.keys = c.fields.map Field.name
  /-- under a name stands what the value of the event is coerced to -/
  values : ∀ f ∈ c.fields, ∃ v, f.incoming event = .ok v ∧ data.get? f.name = some v.toJson
  /-- without a value in the event, it is zero -/
  zeros : ∀ f ∈ c.fields, event.get? f.name = none ∨ event.get? f.name = some .null →
    data.get? f.name = some f.zero.toJson
  /-- the data are taken again, and projected without a change -/
  again : ∃ r, c.ofMembers data = .ok r ∧ r.toMembers = data

/-- **The projection of what an event describes renders the event.** -/
theorem renders_of_ofMembers {c : Contract} {event : Members} {r : Record}
    (h : c.ofMembers event = .ok r) : Renders c event r.toMembers := by
  have hcontract : r.contract = c := Contract.contract_of_ofMembers h
  have hvalues : ∀ f ∈ c.fields, ∃ v, f.incoming event = .ok v ∧
      r.toMembers.get? f.name = some v.toJson := by
    intro f hf
    obtain ⟨v, hv, hget⟩ := Contract.get?_of_ofMembers h hf
    refine ⟨v, hv, ?_⟩
    rw [Record.get?_toMembers_field (hcontract ▸ hf), hget]
    rfl
  obtain ⟨hkeys, hagain⟩ := (Contract.sound_of_ofMembers h).projection
  rw [hcontract] at hkeys hagain
  refine ⟨hkeys, hvalues, ?_, hagain⟩
  intro f hf absent
  obtain ⟨v, hv, hget⟩ := hvalues f hf
  rw [Field.incoming_of_absent (.of_none_or_null absent)] at hv
  rw [hget, Except.ok.inj hv]

/-! ## The first handler of a name -/

/-- The handler at a position is the first of a name. -/
structure FirstNamed (handlers : List Handler) (name : String) (k : Nat) (h : Handler) : Prop where
  /-- it stands there -/
  here : handlers[k]? = some h
  /-- it has the name -/
  name_eq : h.name = name
  /-- no earlier one has -/
  first : ∀ j < k, ∀ g, handlers[j]? = some g → g.name ≠ name

theorem Binds.map_handler {resolver : Resolver} {c : Contract} {handlers : List Handler}
    {bindings : List Binding} (h : Binds resolver c handlers bindings) :
    bindings.map Binding.handler = handlers := by
  induction h with
  | nil => rfl
  | cons bound _ ih => rw [List.map_cons, bound.1, ih]

theorem absent_of_find? {bindings : List Binding} {name : String}
    (h : (bindings.find? fun b => b.handler.name == name) = none) :
    ∀ g ∈ bindings.map Binding.handler, g.name ≠ name := by
  intro g hg heq
  obtain ⟨b, hb, rfl⟩ := List.mem_map.mp hg
  exact List.find?_eq_none.mp h b hb (beq_iff_eq.mpr heq)

/-- The binding that is found is the first of its name. -/
theorem firstNamed_of_find? {bindings : List Binding} {name : String} {b : Binding}
    (h : (bindings.find? fun b => b.handler.name == name) = some b) :
    ∃ k, bindings[k]? = some b ∧ FirstNamed (bindings.map Binding.handler) name k b.handler := by
  obtain ⟨hname, k, hk, rfl, hfirst⟩ := List.find?_eq_some_iff_getElem.mp h
  have hb : bindings[k]? = some bindings[k] := List.getElem?_eq_getElem hk
  refine ⟨k, hb, ?_, eq_of_beq hname, ?_⟩
  · rw [List.getElem?_map, hb]
    rfl
  · intro j hj g hg heq
    rw [List.getElem?_map, List.getElem?_eq_getElem (Nat.lt_trans hj hk)] at hg
    obtain rfl := Option.some.inj hg
    have hother := hfirst j hj
    rw [heq, beq_self_eq_true] at hother
    cases hother

/-! ## Firing -/

namespace Trigger

/-- What becomes of an event that is fired at a name. -/
inductive Fired (output : Contract) (handlers : List Handler) (bindings : List Binding) (name : String)
    (event : Members) (o : TriggerOutcome Members) : Prop where
  /-- there is no such handler, whatever the event -/
  | notFound (absent : ∀ h ∈ handlers, h.name ≠ name) (effects : o.effects = [])
    (result : o.result = .error (.handlerNotFound name))
  /-- there is one, but the event is refused for one of its values, and no handler is called -/
  | refused {k i : Nat} {h : Handler} {f : Field} {e : CoercionError} (first : FirstNamed handlers name k h)
    (refusal : Record.FirstRefused output.fields event i f e)
    (rejected : output.ofMembers event = .error (.field i f.name e)) (effects : o.effects = [])
    (result : o.result = .error (.record (.field i f.name e)))
  /-- the first handler of the name is called with what renders the event, and no other -/
  | delivered {k : Nat} {h : Handler} {b : Binding} {r : Record} (first : FirstNamed handlers name k h)
    (bound : bindings[k]? = some b) (handler : b.handler = h) (taken : output.ofMembers event = .ok r)
    (renders : Renders output event r.toMembers) (effects : o.effects = [.callHandler b r.toMembers])
    (result : o.result = h.handle r.toMembers)

/-- **A started trigger** delivers an event or tells why not, and stays as it is. -/
theorem fired_of_started {t : Trigger} (started : t.state = .started) (name : String) (event : Members) :
    (t.fire name event).trigger = t ∧
      Fired t.metadata.output (t.handlers.map Binding.handler) t.handlers name event
        (t.fire name event) := by
  rw [fire, if_neg (not_not.mpr started)]
  cases hfind : t.handlers.find? fun b => b.handler.name == name with
  | none => exact ⟨rfl, .notFound (absent_of_find? hfind) rfl rfl⟩
  | some b =>
    obtain ⟨k, hb, first⟩ := firstNamed_of_find? hfind
    cases htaken : t.metadata.output.ofMembers event with
    | error e =>
      obtain ⟨i, f, source, rfl, refusal⟩ := Contract.firstRefused_of_ofMembers htaken
      exact ⟨rfl, .refused first refusal htaken rfl rfl⟩
    | ok r => exact ⟨rfl, .delivered first hb rfl htaken (renders_of_ofMembers htaken) rfl rfl⟩

/-! ## The main statement -/

/-- **The delivery of events.** Whatever an instance has gone through, if it is started then it has been
given handlers once, and its bindings are those of these handlers, in order. An event that is fired at it
leaves it as it is, and

* if none of the handlers has the name, the answer is that, whatever the event;
* else, if the output contract refuses the event, the answer is the error of the contract, and no handler
  is called;
* else the first of the handlers with the name is called once, with what renders the event, and its answer
  is the answer. -/
theorem fire_delivery {type : TriggerType} {id : String} {raw : Members} {t : Trigger}
    (created : type.newInstance id raw = .ok t) (calls : List TriggerCall)
    (started : (t.run calls).state = .started) (name : String) (event : Members) :
    let now := t.run calls
    let o := now.fire name event
    o.trigger = now ∧
      ∃ handlers, bindingsOf (t.history calls) = [(handlers, now.handlers)] ∧
        Binds type.resolver type.metadata.handlerSettings handlers now.handlers ∧
        Fired type.metadata.output handlers now.handlers name event o := by
  intro now o
  have haccount : Account type now (t.history calls) := (account_new created).history calls
  obtain ⟨handlers, hbindings, binds⟩ := haccount.bound (.inr started)
  obtain ⟨same, fired⟩ := fired_of_started started name event
  rw [haccount.metadata, binds.map_handler] at fired
  exact ⟨same, handlers, hbindings, binds, fired⟩

/-- Of two handlers of one name the first is called, with zero for what the event has as null. -/
theorem fire_delivery_repeatedName :
    let type := TriggerType.ofDefinition "mail"
      ⟨"inbox", ⟨[], .nil⟩, ⟨[], .nil⟩, ⟨[⟨"size", .int⟩], List.pairwise_singleton _ _⟩⟩
    let echo : Handler := ⟨"archive", [], fun data => .ok data⟩
    let drop : Handler := ⟨"archive", [], fun _ => .ok []⟩
    let calls : List TriggerCall := [.bindHandlers .root [echo, drop], .start (.ok ())]
    ∃ t, type.newInstance "inbox" [] = .ok t ∧
      let o := (t.run calls).fire "archive" [("size", .null)]
      (∃ handlers, bindingsOf (t.history calls) = [(handlers, (t.run calls).handlers)] ∧
        Fired type.metadata.output handlers (t.run calls).handlers "archive" [("size", .null)] o) ∧
      o.effects = [.callHandler ⟨echo, .new type.metadata.handlerSettings⟩ [("size", .ofInt64 0)]] ∧
      o.result = .ok [("size", .ofInt64 0)] := by
  intro type echo drop calls
  have created : type.newInstance "inbox" [] =
      .ok ⟨"inbox", type.metadata, .byFields, .new type.metadata.settings, [], .root, .registered⟩ :=
    rfl
  obtain ⟨-, handlers, hbindings, -, fired⟩ :=
    fire_delivery created calls rfl "archive" [("size", .null)]
  exact ⟨_, created, ⟨handlers, hbindings, fired⟩, rfl, rfl⟩

end Trigger

end ExtensionKit
