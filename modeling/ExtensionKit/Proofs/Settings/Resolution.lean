import ExtensionKit.Artifact.Settings
import ExtensionKit.Proofs.Record.Filling

/-!
# Resolving settings

The resolver takes settings field by field through checked assignments. Since the names of the fields are
distinct and what is coerced fits its field, no assignment is ever refused
(`Resolver.resolveFields_cons_ok`), and the resolver does what filling does:

* not strict, it gives the record that the object describes, and is refused for the same field for the
  same reason;
* strict, a field that is missing is refused as well.

`Resolver.incoming` says for one field what is taken or why it is refused; `byFields_eq_ok_iff` and
`byFields_eq_error_iff` are about the whole.
-/

namespace ExtensionKit

namespace Resolver

/-- What is taken for a field, or why nothing is. -/
def incoming (raw : Members) (strict : Bool) (f : Field) : Except SettingReason Value :=
  if strict && (raw.get? f.name).isNone then .error .missing
  else (f.incoming raw).mapError .coercion

variable {raw : Members} {strict : Bool}

/-- When the setting of a field is taken. -/
theorem incoming_eq_ok_iff {f : Field} {v : Value} :
    incoming raw strict f = .ok v ↔
      (strict = true → f.name ∈ raw.keys) ∧ f.incoming raw = .ok v := by
  rw [← Members.isSome_get?, incoming]
  cases strict <;> cases raw.get? f.name <;> cases f.incoming raw <;> simp [Except.mapError]

/-- When it is refused, and for which reason. -/
theorem incoming_eq_error_iff {f : Field} {reason : SettingReason} :
    incoming raw strict f = .error reason ↔
      (strict = true ∧ raw.get? f.name = none ∧ reason = .missing) ∨
        ((strict = true → f.name ∈ raw.keys) ∧
          ∃ source, f.incoming raw = .error source ∧ reason = .coercion source) := by
  rw [← Members.isSome_get?, incoming]
  cases strict <;> cases raw.get? f.name <;> cases f.incoming raw <;>
    simp [Except.mapError, eq_comm]

/-! ## The loop -/

/-- A value that is taken is assigned: the assignment is never refused. -/
theorem resolveFields_cons_ok {r : Record} {done rest : List Slot} {s : Slot} {fs : List Field}
    {v : Value} (hr : r.slots = done ++ s :: rest) (hv : incoming raw strict s.field = .ok v) :
    resolveFields raw strict r (s.field :: fs) =
      resolveFields raw strict (r.assign s.field.name v) fs := by
  have hs : s ∈ r.slots := by
    rw [hr]
    exact List.mem_append_right _ (List.mem_cons_self ..)
  obtain ⟨hkey, hv⟩ := incoming_eq_ok_iff.mp hv
  have hpresent : ¬(strict && (raw.get? s.field.name).isNone) = true := by
    rw [← Members.isSome_get?] at hkey
    cases strict with
    | false => exact Bool.false_ne_true
    | true => simp [Option.isSome_iff_ne_none.mp (hkey rfl)]
  have hset : r.set s.field.name v = .ok (r.assign s.field.name v) :=
    Record.set_eq_ok_iff.mpr
      ⟨s.field, Contract.field?_of_mem (Record.field_mem hs), Field.fits_of_incoming hv, rfl⟩
  rw [Field.incoming] at hv
  rw [resolveFields]
  simp only [if_neg hpresent, hv, hset]

/-- The first setting that is refused ends the resolution. -/
theorem resolveFields_cons_error {r : Record} {f : Field} {fs : List Field}
    {reason : SettingReason} (h : incoming raw strict f = .error reason) :
    resolveFields raw strict r (f :: fs) = .error (.setting r.contract.name f.name reason) := by
  rw [incoming] at h
  rw [resolveFields]
  split at h
  · next hmissing =>
    obtain rfl := Except.error.inj h
    simp only [if_pos hmissing]
  · next hpresent =>
    simp only [if_neg hpresent]
    rcases hv : f.incoming raw with source | v
    · rw [hv] at h
      obtain rfl := Except.error.inj h
      rw [Field.incoming] at hv
      simp only [hv]
    · rw [hv] at h
      cases h

/-- The loop passes the slots of which every value is taken, and refills them. -/
theorem resolveFields_passed {r : Record} {done passed rest : List Slot}
    (hr : r.slots = done ++ (passed ++ rest))
    (h : ∀ s ∈ passed, ∃ v, incoming raw strict s.field = .ok v) :
    ∃ r' : Record, r'.contract = r.contract ∧
      r'.slots = done ++ (passed.map (Slot.refill raw) ++ rest) ∧
      ∀ fs, resolveFields raw strict r (passed.map Slot.field ++ fs) =
        resolveFields raw strict r' fs := by
  induction passed generalizing r done with
  | nil => exact ⟨r, rfl, hr, fun _ => rfl⟩
  | cons s passed ih =>
    obtain ⟨v, hv⟩ := h s (List.mem_cons_self ..)
    have hrefill : s.refill raw = s.assign v := Slot.refill_eq (incoming_eq_ok_iff.mp hv).2
    have hassign : (r.assign s.field.name v).slots =
        (done ++ [s.refill raw]) ++ (passed ++ rest) := by
      rw [Record.slots_assign hr, hrefill, List.append_assoc]
      rfl
    obtain ⟨r', hcontract, hslots, hloop⟩ :=
      ih hassign fun t ht => h t (List.mem_cons_of_mem _ ht)
    refine ⟨r', hcontract, ?_, fun fs => ?_⟩
    · rw [hslots, List.append_assoc]
      rfl
    · rw [List.map_cons, List.cons_append, resolveFields_cons_ok hr hv, hloop]

/-! ## The resolver -/

variable {c : Contract}

theorem byFields_of_ok (h : ∀ f ∈ c.fields, ∃ v, incoming raw strict f = .ok v) :
    byFields raw c strict = .ok ((Record.new c).refill raw) := by
  have hr : (Record.new c).slots = [] ++ ((Record.new c).slots ++ []) := by
    rw [List.nil_append, List.append_nil]
  have htaken : ∀ s ∈ (Record.new c).slots, ∃ v, incoming raw strict s.field = .ok v :=
    fun s hs => h s.field (Record.field_mem hs)
  obtain ⟨r', hcontract, hslots, hloop⟩ := resolveFields_passed hr htaken
  have hend := hloop []
  rw [List.append_nil, Record.aligned] at hend
  rw [List.nil_append, List.append_nil] at hslots
  rw [byFields]
  exact hend.trans (congrArg Except.ok (Record.ext hcontract hslots))

theorem byFields_of_error {before after : List Field} {f : Field} {reason : SettingReason}
    (split : c.fields = before ++ f :: after)
    (h : ∀ g ∈ before, ∃ v, incoming raw strict g = .ok v)
    (hf : incoming raw strict f = .error reason) :
    byFields raw c strict = .error (.setting c.name f.name reason) := by
  let empty : Field → Slot := fun g => ⟨g, none⟩
  have hr : (Record.new c).slots = [] ++ (before.map empty ++ (f :: after).map empty) := by
    rw [Record.slots_new, split, List.map_append, List.nil_append]
  have hpassed : ∀ s ∈ before.map empty, ∃ v, incoming raw strict s.field = .ok v := by
    intro s hs
    obtain ⟨g, hg, rfl⟩ := List.mem_map.mp hs
    exact h g hg
  obtain ⟨r', hcontract, -, hloop⟩ := resolveFields_passed hr hpassed
  have hfields : (before.map empty).map Slot.field = before := by
    rw [List.map_map]
    exact List.map_id _
  have hend := hloop (f :: after)
  rw [hfields, resolveFields_cons_error hf, hcontract] at hend
  rw [byFields, split]
  exact hend

/-- **When settings are resolved**, and to which record. -/
theorem byFields_eq_ok_iff {r : Record} :
    byFields raw c strict = .ok r ↔
      (∀ f ∈ c.fields, ∃ v, incoming raw strict f = .ok v) ∧ r = (Record.new c).refill raw :=
  (eq_iff_of_first_error (fun _ f reason => .setting c.name f.name reason)
    byFields_of_ok fun _ _ _ _ => byFields_of_error).1 r

/-- **When settings are not resolved**, and which field is blamed. -/
theorem byFields_eq_error_iff {e : Fault} :
    byFields raw c strict = .error e ↔ ∃ before f after reason, c.fields = before ++ f :: after ∧
      (∀ g ∈ before, ∃ v, incoming raw strict g = .ok v) ∧ incoming raw strict f = .error reason ∧
        e = .setting c.name f.name reason :=
  (eq_iff_of_first_error (fun _ f reason => .setting c.name f.name reason)
    byFields_of_ok fun _ _ _ _ => byFields_of_error).2 e

/-! ## Resolving and describing -/

/-- If it is not strict, the resolver takes what filling takes, field by field. -/
theorem incoming_false_eq_ok_iff {f : Field} {v : Value} :
    incoming raw false f = .ok v ↔ f.incoming raw = .ok v := by
  rw [incoming_eq_ok_iff]
  exact and_iff_right fun h => absurd h Bool.false_ne_true

/-- Without the demand for all settings the resolution is that of a record. -/
theorem byFields_false_eq_ok_iff {r : Record} :
    byFields raw c false = .ok r ↔ c.ofMembers raw = .ok r := by
  rw [byFields_eq_ok_iff, Contract.ofMembers_eq_ok_iff]
  simp only [incoming_false_eq_ok_iff]

/-- A value that is refused by filling is refused by the resolver, for the same reason. -/
theorem byFields_false_of_error {index : Nat} {name : String} {source : CoercionError}
    (h : c.ofMembers raw = .error (.field index name source)) :
    byFields raw c false = .error (.setting c.name name (.coercion source)) := by
  obtain ⟨before, f, after, e, split, hbefore, hf, heq⟩ := Contract.ofMembers_eq_error_iff.mp h
  obtain ⟨-, rfl, rfl⟩ := RecordError.field.inj heq
  apply byFields_of_error split
  · simpa only [incoming_false_eq_ok_iff] using hbefore
  · exact incoming_eq_error_iff.mpr (.inr ⟨nofun, source, hf, rfl⟩)

/-- A strict resolver takes an object if every name is there and the object describes a record. -/
theorem byFields_true_eq_ok_iff {r : Record} :
    byFields raw c true = .ok r ↔
      (∀ f ∈ c.fields, f.name ∈ raw.keys) ∧ c.ofMembers raw = .ok r := by
  rw [byFields_eq_ok_iff, Contract.ofMembers_eq_ok_iff, ← and_assoc]
  refine and_congr_left fun _ => ⟨fun h => ⟨fun f hf => ?_, fun f hf => ?_⟩, fun h f hf => ?_⟩
  · obtain ⟨v, hv⟩ := h f hf
    exact (incoming_eq_ok_iff.mp hv).1 rfl
  · obtain ⟨v, hv⟩ := h f hf
    exact ⟨v, (incoming_eq_ok_iff.mp hv).2⟩
  · obtain ⟨v, hv⟩ := h.2 f hf
    exact ⟨v, incoming_eq_ok_iff.mpr ⟨fun _ => h.1 f hf, hv⟩⟩

/-- What a strict resolver takes for a field is the coerced value of its key. -/
theorem incoming_true_eq_ok_iff {f : Field} {v : Value} :
    incoming raw true f = .ok v ↔ ∃ j, raw.get? f.name = some j ∧ f.coercion.apply j = .ok v := by
  rw [incoming_eq_ok_iff, ← Members.isSome_get?, Field.incoming]
  cases raw.get? f.name <;> simp

theorem incoming_true_eq_error_iff {f : Field} {reason : SettingReason} :
    incoming raw true f = .error reason ↔
      (raw.get? f.name = none ∧ reason = .missing) ∨
        ∃ j source, raw.get? f.name = some j ∧ f.coercion.apply j = .error source ∧
          reason = .coercion source := by
  rw [incoming_eq_error_iff, ← Members.isSome_get?, Field.incoming]
  cases raw.get? f.name <;> simp

end Resolver

/-! ## The main statement -/

/-- **The resolver and the reader of records agree.** Not strict, the resolver gives the same record, or
fails at the same field with the same words. Strict, it succeeds if moreover every name is there, and
else reports the first field that is missing or refused. It has no other faults: an assignment that it
makes is never refused. -/
theorem Resolver.byFields_agrees (name : String) (schema : Schema) (stamp : Nat) (raw : Members) :
    let c := Contract.compile name schema stamp
    (∀ r, byFields raw c false = .ok r ↔ c.ofMembers raw = .ok r) ∧
    (∀ e, c.ofMembers raw = .error e → ∃ index field source reason,
      e = .field index field source ∧ byFields raw c false = .error (.setting name field reason) ∧
        reason.message = source.message) ∧
    (∀ r, byFields raw c true = .ok r ↔
      (∀ f ∈ schema.fields, f.name ∈ raw.keys) ∧ c.ofMembers raw = .ok r) ∧
    (∀ e, byFields raw c true = .error e ↔ ∃ before f after reason,
      schema.fields = before ++ f :: after ∧ e = .setting name f.name reason ∧
        (∀ g ∈ before, ∃ j v, raw.get? g.name = some j ∧ g.coercion.apply j = .ok v) ∧
        ((raw.get? f.name = none ∧ reason = .missing) ∨
          ∃ j source, raw.get? f.name = some j ∧ f.coercion.apply j = .error source ∧
            reason = .coercion source)) ∧
    (∀ strict e, byFields raw c strict = .error e →
      ∃ f ∈ schema.fields, ∃ reason, e = .setting name f.name reason) ∧
    SettingReason.missing.message = "required value is missing" ∧
    ∀ source, (SettingReason.coercion source).message = source.message := by
  intro c
  refine ⟨fun r => byFields_false_eq_ok_iff, fun e he => ?_, fun r => byFields_true_eq_ok_iff,
    fun e => ?_, fun strict e he => ?_, rfl, fun _ => rfl⟩
  · obtain ⟨before, f, after, source, -, -, -, rfl⟩ := Contract.ofMembers_eq_error_iff.mp he
    exact ⟨_, _, source, .coercion source, rfl, byFields_false_of_error he, rfl⟩
  · rw [byFields_eq_error_iff]
    simp only [incoming_true_eq_ok_iff, incoming_true_eq_error_iff]
    constructor
    · rintro ⟨before, f, after, reason, split, hbefore, hf, rfl⟩
      refine ⟨before, f, after, reason, split, rfl, fun g hg => ?_, hf⟩
      obtain ⟨v, j, hj, hv⟩ := hbefore g hg
      exact ⟨j, v, hj, hv⟩
    · rintro ⟨before, f, after, reason, split, rfl, hbefore, hf⟩
      refine ⟨before, f, after, reason, split, fun g hg => ?_, hf, rfl⟩
      obtain ⟨j, v, hj, hv⟩ := hbefore g hg
      exact ⟨v, j, hj, hv⟩
  · obtain ⟨before, f, after, reason, split, -, -, rfl⟩ := byFields_eq_error_iff.mp he
    refine ⟨f, ?_, reason, rfl⟩
    change f ∈ c.fields
    rw [split]
    exact List.mem_append_right _ (List.mem_cons_self ..)

end ExtensionKit
