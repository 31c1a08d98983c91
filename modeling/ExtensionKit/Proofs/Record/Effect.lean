import ExtensionKit.Proofs.Record.Filling

/-!
# The effect of a filling

What a filling leaves in every field of a record, whatever the record held before, and what it depends on.

* Up to the first value that is refused every field has its new value, and from there on every field has
  what it had (`Record.get?_fill_of_error`); with no value refused there is nothing left of what the record
  held, and it is the one that the object describes (`Record.fill_eq_ofMembers`).
* An object that is not taken is refused with an error about the first of its values that is
  (`Record.FirstRefused`, `Contract.firstRefused_of_ofMembers`).
* Of an object only what it has under the declared names matters (`Contract.declared`), and not the order
  in which it has it (`Record.fill_congr`, `Contract.get?_declared_perm`).
-/

namespace ExtensionKit

/-- The members of an object that a contract declares. -/
def Contract.declared (c : Contract) (raw : Members) : Members :=
  raw.filter fun m => decide (m.1 ∈ c.fields.map Field.name)

/-! ## What a filling depends on -/

/-- A filling looks at the values of its own fields only. -/
theorem Slot.fillAll_congr {raw raw' : Members} (index : Nat) {slots : List Slot}
    (h : ∀ s ∈ slots, s.field.incoming raw' = s.field.incoming raw) :
    fillAll raw' index slots = fillAll raw index slots := by
  induction slots generalizing index with
  | nil => rfl
  | cons s rest ih =>
    have hs := h s (List.mem_cons_self ..)
    have hrest := ih (index + 1) fun t ht => h t (List.mem_cons_of_mem s ht)
    rw [Field.incoming, Field.incoming] at hs
    rw [fillAll, fillAll, hs, hrest]

namespace Record

/-- A filling depends on nothing but what the fields make of the object. -/
theorem fill_congr_incoming {r : Record} {raw raw' : Members}
    (h : ∀ f ∈ r.contract.fields, f.incoming raw' = f.incoming raw) : r.fill raw' = r.fill raw := by
  have hslots : Slot.fillAll raw' 0 r.slots = Slot.fillAll raw 0 r.slots :=
    Slot.fillAll_congr 0 fun s hs => h s.field (field_mem hs)
  simp only [fill, hslots]

/-- **What a filling depends on**: the values that are found under the declared names. -/
theorem fill_congr {r : Record} {raw raw' : Members}
    (h : ∀ f ∈ r.contract.fields, raw'.get? f.name = raw.get? f.name) : r.fill raw' = r.fill raw := by
  refine fill_congr_incoming fun f hf => ?_
  rw [Field.incoming, Field.incoming, h f hf]

end Record

/-- A record is made of the members of declared names only. -/
theorem Contract.ofMembers_congr {c : Contract} {raw raw' : Members}
    (h : ∀ f ∈ c.fields, raw'.get? f.name = raw.get? f.name) :
    c.ofMembers raw' = c.ofMembers raw := by
  rw [ofMembers, ofMembers, Record.fill_congr (r := Record.new c) h]

/-- What is found under a declared name depends neither on the order of the members nor on those that are
not declared. -/
theorem Contract.get?_declared_perm {c : Contract} {raw raw' : Members} (nodup : raw.keys.Nodup)
    (perm : (c.declared raw').Perm (c.declared raw)) {f : Field} (hf : f ∈ c.fields) :
    raw'.get? f.name = raw.get? f.name := by
  have hname : decide (f.name ∈ c.fields.map Field.name) = true :=
    decide_eq_true (List.mem_map_of_mem hf)
  have nodup' : (c.declared raw).keys.Nodup :=
    nodup.sublist ((List.filter_sublist (l := raw)).map Prod.fst)
  have hdeclared : ∀ ms : Members, (c.declared ms).get? f.name = ms.get? f.name :=
    Members.get?_filter (fun key => decide (key ∈ c.fields.map Field.name)) hname
  rw [← hdeclared raw, ← hdeclared raw', Members.get?_perm perm.symm nodup']

/-! ## What a filling leaves -/

theorem Slot.value_refill {raw : Members} {s : Slot} {v : Value} (h : s.field.incoming raw = .ok v) :
    (s.refill raw).value = some v := by
  rw [refill_eq h]
  rfl

namespace Record

variable {r : Record} {raw : Members}

/-- A refilled record holds nothing of what it held before. -/
theorem refill_eq_refill_new (h : ∀ f ∈ r.contract.fields, ∃ v, f.incoming raw = .ok v) :
    r.refill raw = (new r.contract).refill raw := by
  refine ext rfl ?_
  change r.slots.map (Slot.refill raw) = ((new r.contract).slots.map (Slot.refill raw))
  rw [slots_new, ← r.aligned, List.map_map, List.map_map]
  apply List.map_congr_left
  intro s hs
  obtain ⟨v, hv⟩ := h s.field (field_mem hs)
  rw [Slot.refill_eq hv]
  exact (Slot.refill_eq (s := ⟨s.field, none⟩) hv).symm

/-- **If every value is taken**, the record becomes the one that the object describes. -/
theorem fill_eq_ofMembers (h : ∀ f ∈ r.contract.fields, ∃ v, f.incoming raw = .ok v) :
    (r.fill raw).2 = none ∧ r.contract.ofMembers raw = .ok (r.fill raw).1 := by
  rw [fill_of_ok h, Contract.ofMembers_of_ok h, refill_eq_refill_new h]
  exact ⟨rfl, rfl⟩

/-- A filling that succeeds leaves every field with its coerced value. -/
theorem get?_fill_of_ok (h : ∀ f ∈ r.contract.fields, ∃ v, f.incoming raw = .ok v) {f : Field} {v : Value}
    (hf : f ∈ r.contract.fields) (hv : f.incoming raw = .ok v) : (r.fill raw).1.get? f.name = some v := by
  obtain ⟨s, hs, rfl⟩ := exists_slot hf
  have hnew : s.refill raw ∈ (r.fill raw).1.slots := by
    rw [fill_of_ok h]
    exact List.mem_map_of_mem hs
  have hget := get?_slot hnew
  rwa [Slot.field_refill, Slot.value_refill hv] at hget

/-- **If a value is refused**, the fields before it have their new values, and it and those after it have
what they had. -/
theorem get?_fill_of_error {before after : List Slot} {s : Slot} {e : CoercionError}
    (hr : r.slots = before ++ s :: after) (h : ∀ t ∈ before, ∃ v, t.field.incoming raw = .ok v)
    (he : s.field.incoming raw = .error e) :
    (∀ t ∈ before, ∀ v, t.field.incoming raw = .ok v →
        (r.fill raw).1.get? t.field.name = some v) ∧
      ∀ t ∈ s :: after, (r.fill raw).1.get? t.field.name = r.get? t.field.name := by
  obtain ⟨hslots, -⟩ := fill_of_error hr h he
  constructor
  · intro t ht v hv
    have hnew : t.refill raw ∈ (r.fill raw).1.slots := by
      rw [hslots]
      exact List.mem_append_left _ (List.mem_map_of_mem ht)
    have hget := get?_slot hnew
    rwa [Slot.field_refill, Slot.value_refill hv] at hget
  · intro t ht
    have hold : t ∈ r.slots := by
      rw [hr]
      exact List.mem_append_right _ ht
    have hnew : t ∈ (r.fill raw).1.slots := by
      rw [hslots]
      exact List.mem_append_right _ ht
    rw [get?_slot hnew, get?_slot hold]

/-! ## The first refused field -/

/-- The field at a position is the first of the fields whose value from an object is refused. -/
def FirstRefused (fields : List Field) (raw : Members) (k : Nat) (f : Field) (e : CoercionError) : Prop :=
  fields[k]? = some f ∧ f.incoming raw = .error e ∧
    ∀ j < k, ∀ g, fields[j]? = some g → ∃ v, g.incoming raw = .ok v

theorem FirstRefused.mem {fields : List Field} {raw : Members} {k : Nat} {f : Field} {e : CoercionError}
    (h : FirstRefused fields raw k f e) : f ∈ fields :=
  List.mem_of_getElem? h.1

/-- A refused field after fields that are taken is the first. -/
theorem firstRefused_of_split {before after : List Field} {f : Field} {raw : Members} {e : CoercionError}
    (taken : ∀ g ∈ before, ∃ v, g.incoming raw = .ok v) (he : f.incoming raw = .error e) :
    FirstRefused (before ++ f :: after) raw before.length f e := by
  refine ⟨?_, he, ?_⟩
  · rw [List.getElem?_append_right (Nat.le_refl _), Nat.sub_self]
    rfl
  · intro j hj g hg
    rw [List.getElem?_append_left hj] at hg
    exact taken g (List.mem_of_getElem? hg)

end Record

namespace Contract

variable {c : Contract} {raw : Members}

/-- An object is refused with an error about the first field whose value is. -/
theorem firstRefused_of_ofMembers {e : RecordError} (h : c.ofMembers raw = .error e) :
    ∃ k f source, e = .field k f.name source ∧ Record.FirstRefused c.fields raw k f source := by
  obtain ⟨before, f, after, source, hfields, taken, he, rfl⟩ := ofMembers_eq_error_iff.mp h
  rw [hfields]
  exact ⟨before.length, f, source, rfl, Record.firstRefused_of_split taken he⟩

/-- A record that an object describes has its value for every field. -/
theorem get?_of_ofMembers {r : Record} (h : c.ofMembers raw = .ok r) {f : Field} (hf : f ∈ c.fields) :
    ∃ v, f.incoming raw = .ok v ∧ r.get? f.name = some v := by
  obtain ⟨taken, rfl⟩ := ofMembers_eq_ok_iff.mp h
  obtain ⟨v, hv⟩ := taken f hf
  have hget := Record.get?_fill_of_ok (r := Record.new c) taken hf hv
  rw [Record.fill_of_ok (r := Record.new c) taken] at hget
  exact ⟨v, hv, hget⟩

end Contract

namespace Record

/-! ## The main statement -/

/-- **The effect of a filling.** Whatever the record held:

* if every value is taken, the filling succeeds, every field has its new value, and the record is the one
  that the object describes by itself;
* else there is a first field whose value is refused. The error tells its position, its name and why, and
  the object is refused with the same error; the fields before it have their new values, and it and the
  fields after it have what they had, set or unset.

All this depends neither on the order of the members nor on those that are not declared. -/
theorem fill_effect (r : Record) (raw : Members) :
    ((∀ f ∈ r.contract.fields, ∃ v, f.incoming raw = .ok v) ∧
        (r.fill raw).2 = none ∧
        (∀ f ∈ r.contract.fields, ∀ v, f.incoming raw = .ok v →
          (r.fill raw).1.get? f.name = some v) ∧
        r.contract.ofMembers raw = .ok (r.fill raw).1 ∨
      ∃ k f e, FirstRefused r.contract.fields raw k f e ∧
        (r.fill raw).2 = some (.field k f.name e) ∧
        r.contract.ofMembers raw = .error (.field k f.name e) ∧
        (∀ j < k, ∀ g, r.contract.fields[j]? = some g → ∀ v, g.incoming raw = .ok v →
          (r.fill raw).1.get? g.name = some v) ∧
        ∀ j ≥ k, ∀ g, r.contract.fields[j]? = some g →
          (r.fill raw).1.get? g.name = r.get? g.name) ∧
    ∀ raw', raw.keys.Nodup → (r.contract.declared raw').Perm (r.contract.declared raw) →
      r.fill raw' = r.fill raw ∧ r.contract.ofMembers raw' = r.contract.ofMembers raw := by
  constructor
  · rcases all_ok_or_first_error (fun s : Slot => s.field.incoming raw) r.slots with
      hok | ⟨before, s, after, e, hslots, hbefore, he⟩
    · have htaken : ∀ f ∈ r.contract.fields, ∃ v, f.incoming raw = .ok v := by
        intro f hf
        obtain ⟨s, hs, rfl⟩ := exists_slot hf
        exact hok s hs
      obtain ⟨hnone, hsame⟩ := fill_eq_ofMembers htaken
      exact .inl ⟨htaken, hnone, fun f hf v hv => get?_fill_of_ok htaken hf hv, hsame⟩
    · have hfields : r.contract.fields = before.map Slot.field ++ s.field :: after.map Slot.field := by
        rw [← r.aligned, hslots, List.map_append, List.map_cons]
      have hlength : (before.map Slot.field).length = before.length := List.length_map ..
      have hearlier : ∀ j < before.length, ∀ g, r.contract.fields[j]? = some g →
          ∃ t ∈ before, t.field = g := by
        intro j hj g hg
        rw [hfields, List.getElem?_append_left (by omega)] at hg
        exact List.mem_map.mp (List.mem_of_getElem? hg)
      have hlater : ∀ j ≥ before.length, ∀ g, r.contract.fields[j]? = some g →
          ∃ t ∈ s :: after, t.field = g := by
        intro j hj g hg
        rw [hfields, List.getElem?_append_right (by omega), ← List.map_cons] at hg
        exact List.mem_map.mp (List.mem_of_getElem? hg)
      have hbefore' : ∀ g ∈ before.map Slot.field, ∃ v, g.incoming raw = .ok v := by
        intro g hg
        obtain ⟨t, ht, rfl⟩ := List.mem_map.mp hg
        exact hbefore t ht
      obtain ⟨hnew, hkept⟩ := get?_fill_of_error hslots hbefore he
      refine .inr ⟨before.length, s.field, e, ⟨?_, he, ?_⟩,
        (fill_of_error hslots hbefore he).2, ?_, ?_, ?_⟩
      · rw [hfields, List.getElem?_append_right (by omega), hlength, Nat.sub_self]
        rfl
      · intro j hj g hg
        obtain ⟨t, ht, rfl⟩ := hearlier j hj g hg
        exact hbefore t ht
      · rw [← hlength]
        exact Contract.ofMembers_of_error hfields hbefore' he
      · intro j hj g hg v hv
        obtain ⟨t, ht, rfl⟩ := hearlier j hj g hg
        exact hnew t ht v hv
      · intro j hj g hg
        obtain ⟨t, ht, rfl⟩ := hlater j hj g hg
        exact hkept t ht
  · intro raw' nodup perm
    have hsame : ∀ f ∈ r.contract.fields, raw'.get? f.name = raw.get? f.name :=
      fun f hf => Contract.get?_declared_perm nodup perm hf
    exact ⟨fill_congr hsame, Contract.ofMembers_congr hsame⟩

/-- A list in the place of an integer stops a filling at the second of three fields. A member that is not
declared and another order of the members change nothing. -/
theorem fill_effect_stopped :
    ∃ schema, Schema.ofFields [⟨"on", .boolean⟩, ⟨"count", .int⟩, ⟨"note", .string⟩] = .ok schema ∧
      let c := Contract.compile "Entry" schema
      let r := (Record.new c).assign "note" (.string "old")
      let raw : Members := [("note", .string "new"), ("count", .array []), ("on", .bool true)]
      FirstRefused c.fields raw 1 ⟨"count", .int⟩ ⟨.array [], .int64, none⟩ ∧
        (r.fill raw).1.get? "on" = some (.bool true) ∧ (r.fill raw).1.get? "count" = none ∧
        (r.fill raw).1.get? "note" = some (.string "old") ∧
        r.fill [("on", .bool true), ("extra", .null), ("count", .array []), ("note", .string "new")] =
          r.fill raw := by
  have accepted : Schema.ofFields [⟨"on", .boolean⟩, ⟨"count", .int⟩, ⟨"note", .string⟩] =
      .ok ⟨[⟨"on", .boolean⟩, ⟨"count", .int⟩, ⟨"note", .string⟩], by decide +kernel⟩ := rfl
  refine ⟨_, accepted, ?_⟩
  intro c r raw
  have perm : (c.declared [("on", .bool true), ("extra", .null), ("count", .array []),
      ("note", .string "new")]).Perm (c.declared raw) := List.reverse_perm raw
  refine ⟨⟨rfl, rfl, ?_⟩, rfl, rfl, rfl, ((fill_effect r raw).2 _ (by decide) perm).1⟩
  intro j hj g hg
  obtain rfl : j = 0 := by omega
  obtain rfl := Option.some.inj hg
  exact ⟨.bool true, rfl⟩

end Record

end ExtensionKit
