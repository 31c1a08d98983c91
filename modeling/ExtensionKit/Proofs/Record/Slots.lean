import ExtensionKit.Proofs.Json.Members
import ExtensionKit.Proofs.List.First
import ExtensionKit.Proofs.Record.Schema
import ExtensionKit.Proofs.Typing.Fits
import ExtensionKit.Record.Basic

/-!
# The slots of a record

The fields of a contract have distinct names, so a name addresses one slot: the one that is found is
the one that has it (`Record.find?_slot`), and an assignment changes that slot alone
(`Record.slots_assign`). `Record.set_eq_ok_iff` says what an assignment needs: a field of the name, and a
value that fits the field.
-/

namespace ExtensionKit

namespace Contract

theorem nodup_names (c : Contract) : (c.fields.map Field.name).Nodup := c.schema.nodup_names

theorem field?_of_mem {c : Contract} {f : Field} (hf : f ∈ c.fields) : c.field? f.name = some f :=
  find?_key c.nodup_names hf

end Contract

namespace Record

theorem ext {r s : Record} (contract : r.contract = s.contract) (slots : r.slots = s.slots) :
    r = s := by
  cases r; cases s
  subst contract; subst slots
  rfl

theorem slots_new (c : Contract) : (new c).slots = c.fields.map fun f => ⟨f, none⟩ := rfl

theorem map_name_slots (r : Record) :
    (r.slots.map fun s => s.field.name) = r.contract.fields.map Field.name := by
  rw [← r.aligned, List.map_map]
  rfl

theorem nodup_names (r : Record) : (r.slots.map fun s => s.field.name).Nodup := by
  rw [map_name_slots]
  exact r.contract.nodup_names

theorem nodup_idents (r : Record) : (r.slots.map fun s => s.field.ident).Nodup := by
  have distinct : (r.contract.fields.map Field.ident).Nodup := r.contract.schema.distinct
  rwa [← r.aligned, List.map_map] at distinct

theorem field_mem {r : Record} {s : Slot} (hs : s ∈ r.slots) : s.field ∈ r.contract.fields := by
  rw [← r.aligned]
  exact List.mem_map_of_mem hs

/-- Every field of the contract has a slot. -/
theorem exists_slot {r : Record} {f : Field} (hf : f ∈ r.contract.fields) :
    ∃ s ∈ r.slots, s.field = f := by
  rw [← r.aligned] at hf
  exact List.mem_map.mp hf

/-- The slot that is found under the name of a slot is that slot. -/
theorem find?_slot {r : Record} {s : Slot} (hs : s ∈ r.slots) :
    (r.slots.find? fun t => t.field.name == s.field.name) = some s :=
  find?_key r.nodup_names hs

theorem get?_slot {r : Record} {s : Slot} (hs : s ∈ r.slots) : r.get? s.field.name = s.value := by
  rw [get?, find?_slot hs]
  rfl

/-- Identifiers address the same slots as names. -/
theorem getByIdent?_slot {r : Record} {s : Slot} (hs : s ∈ r.slots) :
    r.getByIdent? s.field.ident = s.value := by
  have hfind : (r.slots.find? fun t => t.field.ident == s.field.ident) = some s :=
    find?_key r.nodup_idents hs
  rw [getByIdent?, hfind]
  rfl

/-! ## Assignment -/

/-- An assignment changes one slot. -/
theorem slots_assign {r : Record} {done rest : List Slot} {s : Slot}
    (hr : r.slots = done ++ s :: rest) (value : Value) :
    (r.assign s.field.name value).slots = done ++ s.assign value :: rest := by
  have nodup := r.nodup_names
  rw [hr, List.map_append, List.map_cons, List.nodup_append, List.nodup_cons] at nodup
  obtain ⟨-, ⟨hrest, -⟩, hdone⟩ := nodup
  have keep : ∀ ts : List Slot, (∀ t ∈ ts, t.field.name ≠ s.field.name) →
      (ts.map fun t => if t.field.name = s.field.name then t.assign value else t) = ts := by
    intro ts hts
    conv_rhs => rw [← List.map_id ts]
    apply List.map_congr_left
    intro t ht
    rw [if_neg (hts t ht), id]
  change (r.slots.map fun t => if t.field.name = s.field.name then t.assign value else t) = _
  rw [hr, List.map_append, List.map_cons, if_pos rfl, keep done, keep rest]
  · intro t ht heq
    exact hrest (heq ▸ List.mem_map_of_mem ht)
  · intro t ht
    exact hdone _ (List.mem_map_of_mem ht) _ (List.mem_cons_self ..)

/-- A value that fits is no number that is not finite. -/
theorem notFinite?_eq_none_iff {v : Value} :
    notFinite? v = none ↔ ∀ x, v = .float64 x → x.isFinite = true := by
  cases v with
  | float64 x => simp [notFinite?]
  | _ => simp [notFinite?]

/-- **Assignments**: one succeeds exactly if the name is declared and the value fits the field. -/
theorem set_eq_ok_iff {r r' : Record} {name : String} {value : Value} :
    r.set name value = .ok r' ↔
      ∃ f, r.contract.field? name = some f ∧ value.Fits f.representation ∧
        r' = r.assign name value := by
  rw [set]
  constructor
  · intro h
    split at h
    · cases h
    · next f hf =>
      split at h
      · cases h
      · next held =>
        split at h
        · cases h
        · next finite =>
          exact ⟨f, hf, ⟨not_not.mp held, notFinite?_eq_none_iff.mp finite⟩,
            (Except.ok.inj h).symm⟩
  · rintro ⟨f, hf, fits, rfl⟩
    rw [hf]
    simp only [fits.held, notFinite?_eq_none_iff.mpr fits.finite, ne_eq, not_true, if_false]

end Record

end ExtensionKit
