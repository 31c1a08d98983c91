import ExtensionKit.Json.Basic

/-!
# Looking up members

The keys of an object are distinct. Then every member is the one that is found under its key
(`Members.get?_of_mem`), in whatever order the members stand (`Members.get?_perm`), and a member with a
new key is put at the end (`Members.insert_of_notMem`).
-/

namespace ExtensionKit

namespace Members

/-- With distinct keys, the member that is found under a key is the one that has it. -/
theorem get?_of_mem {ms : Members} {key : String} {value : Json} (nodup : ms.keys.Nodup)
    (h : (key, value) ∈ ms) : ms.get? key = some value := by
  induction ms with
  | nil => cases h
  | cons m rest ih =>
    obtain ⟨k, v⟩ := m
    obtain ⟨fresh, nodup⟩ := List.nodup_cons.mp nodup
    rw [get?, List.lookup_cons]
    rcases List.mem_cons.mp h with heq | htail
    · obtain ⟨rfl, rfl⟩ := Prod.mk.inj heq
      rw [beq_self_eq_true]
    · have hne : key ≠ k := by
        rintro rfl
        exact fresh (List.mem_map.mpr ⟨_, htail, rfl⟩)
      rw [beq_false_of_ne hne]
      exact ih nodup htail

theorem mem_of_get? {ms : Members} {key : String} {value : Json} (h : ms.get? key = some value) :
    (key, value) ∈ ms := by
  obtain ⟨before, after, rfl, -⟩ := List.lookup_eq_some_iff.mp h
  exact List.mem_append_right _ (List.mem_cons_self ..)

/-- With distinct keys the order of the members does not matter. -/
theorem get?_perm {ms ns : Members} (perm : ms.Perm ns) (nodup : ms.keys.Nodup) (key : String) :
    ms.get? key = ns.get? key := by
  have nodup' : ns.keys.Nodup := (perm.map Prod.fst).nodup nodup
  rcases hvalue : ms.get? key with _ | value
  · rcases hother : ns.get? key with _ | value
    · rfl
    · rw [get?_of_mem nodup (perm.mem_iff.mpr (mem_of_get? hother))] at hvalue
      cases hvalue
  · exact (get?_of_mem nodup' (perm.mem_iff.mp (mem_of_get? hvalue))).symm

/-- Members that are dropped for their keys are not missed under a key that is kept. -/
theorem get?_filter (keep : String → Bool) {key : String} (h : keep key = true) (ms : Members) :
    get? (ms.filter fun m => keep m.1) key = ms.get? key := by
  induction ms with
  | nil => rfl
  | cons m rest ih =>
    obtain ⟨k, v⟩ := m
    rw [get?, get?] at *
    rw [List.filter_cons]
    by_cases hkey : key = k
    · subst hkey
      rw [if_pos h, List.lookup_cons, List.lookup_cons, beq_self_eq_true]
    · split
      · rw [List.lookup_cons, List.lookup_cons, beq_false_of_ne hkey]
        exact ih
      · rw [List.lookup_cons, beq_false_of_ne hkey]
        exact ih

/-- A value is found under a key exactly if the key is there. -/
theorem isSome_get? {ms : Members} {key : String} : (ms.get? key).isSome ↔ key ∈ ms.keys := by
  rw [get?, List.lookup_isSome_iff, keys, List.mem_map]
  constructor
  · rintro ⟨m, hm, hkey⟩
    exact ⟨m, hm, (eq_of_beq hkey).symm⟩
  · rintro ⟨m, hm, rfl⟩
    exact ⟨m, hm, beq_self_eq_true _⟩

/-- A member with a new key is put at the end. -/
theorem insert_of_notMem {ms : Members} {key : String} {value : Json} (h : key ∉ ms.keys) :
    ms.insert key value = ms ++ [(key, value)] := by
  induction ms with
  | nil => rfl
  | cons m rest ih =>
    obtain ⟨k, v⟩ := m
    obtain ⟨hne, h⟩ := List.ne_and_not_mem_of_not_mem_cons h
    rw [insert, if_neg (Ne.symm hne), ih h]
    rfl

end Members

end ExtensionKit
