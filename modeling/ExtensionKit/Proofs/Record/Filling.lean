import ExtensionKit.Proofs.Record.Slots

/-!
# Filling records

What an object has for a field is coerced without regard to the record (`Field.incoming`), so a list of
fields either is taken as a whole or has a first one that is refused (`all_ok_or_first_error`). Filling is
described by these two cases: in the first all slots are refilled, in the second those before the
refused one, and the error is about that one.
-/

namespace ExtensionKit

/-- The outcome of coercing what an object has for a field. A missing key counts as null. -/
def Field.incoming (raw : Members) (f : Field) : Except CoercionError Value :=
  f.coercion.apply ((raw.get? f.name).getD .null)

/-- What is taken into a field fits it. -/
theorem Field.fits_of_incoming {raw : Members} {f : Field} {v : Value} (h : f.incoming raw = .ok v) :
    v.Fits f.representation :=
  Coercion.fits_of_apply h

/-- The slot with its value from an object, if that can be coerced. -/
def Slot.refill (raw : Members) (s : Slot) : Slot :=
  match s.field.incoming raw with
  | .ok value => s.assign value
  | .error _ => s

namespace Slot

variable {raw : Members}

theorem refill_eq {s : Slot} {v : Value} (h : s.field.incoming raw = .ok v) :
    s.refill raw = s.assign v := by
  rw [refill, h]

@[simp] theorem field_refill (s : Slot) : (s.refill raw).field = s.field := by
  rw [refill]
  split <;> rfl

theorem fillAll_cons_ok {index : Nat} {s : Slot} {rest : List Slot} {v : Value}
    (h : s.field.incoming raw = .ok v) :
    fillAll raw index (s :: rest) =
      (s.refill raw :: (fillAll raw (index + 1) rest).1, (fillAll raw (index + 1) rest).2) := by
  rw [refill_eq h, fillAll]
  rw [Field.incoming] at h
  rw [h]

/-- The first field that is refused ends the filling, and nothing is changed from there on. -/
theorem fillAll_cons_error {index : Nat} {s : Slot} {rest : List Slot} {e : CoercionError}
    (h : s.field.incoming raw = .error e) :
    fillAll raw index (s :: rest) = (s :: rest, some (.field index s.field.name e)) := by
  rw [Field.incoming] at h
  rw [fillAll, h]

/-- If every value is taken, every slot is refilled. -/
theorem fillAll_of_ok {slots : List Slot} (index : Nat)
    (h : ∀ s ∈ slots, ∃ v, s.field.incoming raw = .ok v) :
    fillAll raw index slots = (slots.map (refill raw), none) := by
  induction slots generalizing index with
  | nil => rfl
  | cons s rest ih =>
    obtain ⟨v, hv⟩ := h s (List.mem_cons_self ..)
    rw [fillAll_cons_ok hv, ih _ fun t ht => h t (List.mem_cons_of_mem _ ht)]
    rfl

/-- The first value that is refused is reported, and its slot and the later ones stay as they are. -/
theorem fillAll_of_error {before after : List Slot} {s : Slot} {e : CoercionError} (index : Nat)
    (h : ∀ t ∈ before, ∃ v, t.field.incoming raw = .ok v) (he : s.field.incoming raw = .error e) :
    fillAll raw index (before ++ s :: after) =
      (before.map (refill raw) ++ s :: after,
        some (.field (index + before.length) s.field.name e)) := by
  induction before generalizing index with
  | nil => exact fillAll_cons_error he
  | cons t rest ih =>
    obtain ⟨v, hv⟩ := h t (List.mem_cons_self ..)
    rw [List.cons_append, fillAll_cons_ok hv, ih _ fun u hu => h u (List.mem_cons_of_mem _ hu)]
    rw [List.length_cons, Nat.add_assoc, Nat.add_comm 1]
    rfl

end Slot

namespace Record

/-- The record with all its slots refilled. -/
def refill (r : Record) (raw : Members) : Record :=
  ⟨r.contract, r.slots.map (Slot.refill raw), by
    rw [← r.aligned, List.map_map]
    exact List.map_congr_left fun s _ => s.field_refill⟩

theorem fill_of_ok {r : Record} {raw : Members}
    (h : ∀ f ∈ r.contract.fields, ∃ v, f.incoming raw = .ok v) :
    r.fill raw = (r.refill raw, none) := by
  have hslots : Slot.fillAll raw 0 r.slots = (r.slots.map (Slot.refill raw), none) :=
    Slot.fillAll_of_ok 0 fun s hs => h s.field (field_mem hs)
  have hrecord : (r.fill raw).1 = r.refill raw := ext rfl (congrArg Prod.fst hslots)
  have herror : (r.fill raw).2 = none := congrArg Prod.snd hslots
  exact Prod.ext hrecord herror

/-- The slots after a filling that stops, and its error. -/
theorem fill_of_error {r : Record} {raw : Members} {before after : List Slot} {s : Slot}
    {e : CoercionError} (hr : r.slots = before ++ s :: after)
    (h : ∀ t ∈ before, ∃ v, t.field.incoming raw = .ok v) (he : s.field.incoming raw = .error e) :
    (r.fill raw).1.slots = before.map (Slot.refill raw) ++ s :: after ∧
      (r.fill raw).2 = some (.field before.length s.field.name e) := by
  have hfill : Slot.fillAll raw 0 (before ++ s :: after) = _ := Slot.fillAll_of_error 0 h he
  rw [Nat.zero_add, ← hr] at hfill
  exact ⟨congrArg Prod.fst hfill, congrArg Prod.snd hfill⟩

end Record

namespace Contract

variable {c : Contract} {raw : Members}

/-- An object of which every value is taken describes a record. -/
theorem ofMembers_of_ok (h : ∀ f ∈ c.fields, ∃ v, f.incoming raw = .ok v) :
    c.ofMembers raw = .ok ((Record.new c).refill raw) := by
  rw [ofMembers, Record.fill_of_ok h]

/-- An object is refused for the first of its values that is. -/
theorem ofMembers_of_error {before after : List Field} {f : Field} {e : CoercionError}
    (split : c.fields = before ++ f :: after) (h : ∀ g ∈ before, ∃ v, g.incoming raw = .ok v)
    (he : f.incoming raw = .error e) :
    c.ofMembers raw = .error (.field before.length f.name e) := by
  have hslots : (Record.new c).slots =
      before.map (fun g => ⟨g, none⟩) ++ ⟨f, none⟩ :: after.map (fun g => ⟨g, none⟩) := by
    rw [Record.slots_new, split, List.map_append, List.map_cons]
  have hbefore : ∀ t ∈ before.map (fun g => (⟨g, none⟩ : Slot)),
      ∃ v, t.field.incoming raw = .ok v := by
    intro t ht
    obtain ⟨g, hg, rfl⟩ := List.mem_map.mp ht
    exact h g hg
  obtain ⟨-, herr⟩ := Record.fill_of_error hslots hbefore he
  rw [List.length_map] at herr
  rw [ofMembers]
  split
  · next hfill => rw [hfill] at herr; cases herr
  · next e' hfill =>
    rw [hfill] at herr
    rw [Option.some.inj herr]

/-- **When a record is made of members**, and which. -/
theorem ofMembers_eq_ok_iff {r : Record} :
    c.ofMembers raw = .ok r ↔
      (∀ f ∈ c.fields, ∃ v, f.incoming raw = .ok v) ∧ r = (Record.new c).refill raw :=
  (eq_iff_of_first_error (fun before f e => .field before.length f.name e)
    ofMembers_of_ok fun _ _ _ _ => ofMembers_of_error).1 r

/-- **When no record is made of members**, and which field is blamed. -/
theorem ofMembers_eq_error_iff {e : RecordError} :
    c.ofMembers raw = .error e ↔ ∃ before f after source, c.fields = before ++ f :: after ∧
      (∀ g ∈ before, ∃ v, g.incoming raw = .ok v) ∧ f.incoming raw = .error source ∧
        e = .field before.length f.name source :=
  (eq_iff_of_first_error (fun before f e => .field before.length f.name e)
    ofMembers_of_ok fun _ _ _ _ => ofMembers_of_error).2 e

end Contract

end ExtensionKit
