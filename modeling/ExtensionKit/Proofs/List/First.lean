import Mathlib.Data.List.Induction
import Mathlib.Data.List.Nodup

/-!
# The first of a list

Four things that are said of the first item of a list that has a property. An item that is looked for by
its key is the one that has it, if keys are distinct (`find?_key`), in whatever order the items stand
(`find?_key_perm`). If they are not, there is a first item with the key of an earlier one
(`nodup_or_first_repeat`). A list that is taken item by item is taken as a whole or has a first item that
is refused (`all_ok_or_first_error`). And if no two items have a result, the first result does not depend on
the order of the items (`findSome?_perm`).
-/

namespace ExtensionKit

/-- In a list with distinct keys, the item that is found under the key of an item is that item. -/
theorem find?_key {κ : Type} [BEq κ] [LawfulBEq κ] {key : α → κ} {xs : List α} {x : α}
    (nodup : (xs.map key).Nodup) (hx : x ∈ xs) : (xs.find? fun y => key y == key x) = some x := by
  have hsome : (xs.find? fun y => key y == key x).isSome := by
    rw [List.find?_isSome]
    exact ⟨x, hx, beq_self_eq_true _⟩
  obtain ⟨y, hy⟩ := Option.isSome_iff_exists.mp hsome
  have hkey : (key y == key x) = true := List.find?_some (p := fun y => key y == key x) hy
  rw [hy, List.inj_on_of_nodup_map nodup (List.mem_of_find?_eq_some hy) hx (eq_of_beq hkey)]

/-- What is found under a key is in the list and has the key. -/
theorem of_find?_key {κ : Type} [BEq κ] [LawfulBEq κ] {key : α → κ} {xs : List α} {k : κ} {x : α}
    (h : (xs.find? fun y => key y == k) = some x) : x ∈ xs ∧ key x = k :=
  ⟨List.mem_of_find?_eq_some h, eq_of_beq (List.find?_some (p := fun y => key y == k) h)⟩

/-- With distinct keys the order of the list does not matter for what is found under a key. -/
theorem find?_key_perm {κ : Type} [BEq κ] [LawfulBEq κ] {key : α → κ} {xs ys : List α}
    (perm : xs.Perm ys) (nodup : (xs.map key).Nodup) (k : κ) :
    (xs.find? fun y => key y == k) = ys.find? fun y => key y == k := by
  have nodup' : (ys.map key).Nodup := (perm.map key).nodup nodup
  cases hx : xs.find? fun y => key y == k with
  | some x =>
    obtain ⟨hmem, rfl⟩ := of_find?_key hx
    exact (find?_key nodup' (perm.subset hmem)).symm
  | none =>
    cases hy : ys.find? fun y => key y == k with
    | none => rfl
    | some y =>
      obtain ⟨hmem, rfl⟩ := of_find?_key hy
      rw [find?_key nodup (perm.symm.subset hmem)] at hx
      cases hx

/-- If not all items have a property, there is a first one that has not. -/
theorem exists_first_not {p : α → Prop} {xs : List α} (h : ¬∀ x ∈ xs, p x) :
    ∃ before x after, xs = before ++ x :: after ∧ (∀ y ∈ before, p y) ∧ ¬p x := by
  induction xs with
  | nil => exact absurd (fun _ hx => absurd hx List.not_mem_nil) h
  | cons x xs ih =>
    by_cases hx : p x
    · have hxs : ¬∀ y ∈ xs, p y := fun hxs => h (List.forall_mem_cons.mpr ⟨hx, hxs⟩)
      obtain ⟨before, y, after, rfl, hbefore, hy⟩ := ih hxs
      exact ⟨x :: before, y, after, rfl, List.forall_mem_cons.mpr ⟨hx, hbefore⟩, hy⟩
    · exact ⟨[], x, xs, rfl, fun _ hy => absurd hy List.not_mem_nil, hx⟩

/-- Either all keys are distinct or there is a first item with the key of an earlier one. -/
theorem nodup_or_first_repeat (key : α → κ) (xs : List α) :
    (xs.map key).Nodup ∨
      ∃ before x after, xs = before ++ x :: after ∧ (before.map key).Nodup ∧
        ∃ y ∈ before, key y = key x := by
  induction xs using List.reverseRecOn with
  | nil => exact .inl List.nodup_nil
  | append_singleton xs x ih =>
    rcases ih with nodup | ⟨before, y, after, rfl, nodup, hy⟩
    · by_cases hmem : key x ∈ xs.map key
      · exact .inr ⟨xs, x, [], rfl, nodup, List.mem_map.mp hmem⟩
      · refine .inl ?_
        rw [List.map_append, List.map_cons, List.map_nil, List.nodup_append_comm]
        exact List.nodup_cons.mpr ⟨hmem, nodup⟩
    · exact .inr ⟨before, y, after ++ [x], by rw [List.append_assoc, List.cons_append], nodup, hy⟩

/-- Either all items are taken or there is a first one that is refused. -/
theorem all_ok_or_first_error (f : α → Except ε β) (xs : List α) :
    (∀ x ∈ xs, ∃ b, f x = .ok b) ∨
      ∃ before x after e, xs = before ++ x :: after ∧ (∀ y ∈ before, ∃ b, f y = .ok b) ∧
        f x = .error e := by
  induction xs with
  | nil => exact .inl fun _ hx => absurd hx List.not_mem_nil
  | cons x xs ih =>
    rcases hx : f x with e | b
    · exact .inr ⟨[], x, xs, e, rfl, fun _ hy => absurd hy List.not_mem_nil, hx⟩
    · rcases ih with ih | ⟨before, y, after, e, rfl, hbefore, hy⟩
      · refine .inl fun y hy => ?_
        rcases List.mem_cons.mp hy with rfl | hy
        · exact ⟨b, hx⟩
        · exact ih y hy
      · refine .inr ⟨x :: before, y, after, e, rfl, fun z hz => ?_, hy⟩
        rcases List.mem_cons.mp hz with rfl | hz
        · exact ⟨b, hx⟩
        · exact hbefore z hz

/-- A result that is given by the first refused item, or by there being none, can be read off either
way. -/
theorem eq_iff_of_first_error (report : List α → α → ε → δ) {f : α → Except ε β} {xs : List α}
    {result : Except δ γ} {r : γ}
    (hok : (∀ x ∈ xs, ∃ b, f x = .ok b) → result = .ok r)
    (herror : ∀ before x after e, xs = before ++ x :: after → (∀ y ∈ before, ∃ b, f y = .ok b) →
      f x = .error e → result = .error (report before x e)) :
    (∀ r', result = .ok r' ↔ (∀ x ∈ xs, ∃ b, f x = .ok b) ∧ r' = r) ∧
      ∀ d, result = .error d ↔ ∃ before x after e, xs = before ++ x :: after ∧
        (∀ y ∈ before, ∃ b, f y = .ok b) ∧ f x = .error e ∧ d = report before x e := by
  refine ⟨fun r' => ⟨fun h => ?_, ?_⟩, fun d => ⟨fun h => ?_, ?_⟩⟩
  · rcases all_ok_or_first_error f xs with hall | ⟨before, x, after, e, hxs, hbefore, hx⟩
    · rw [hok hall] at h
      exact ⟨hall, (Except.ok.inj h).symm⟩
    · rw [herror before x after e hxs hbefore hx] at h
      cases h
  · rintro ⟨hall, rfl⟩
    exact hok hall
  · rcases all_ok_or_first_error f xs with hall | ⟨before, x, after, e, hxs, hbefore, hx⟩
    · rw [hok hall] at h
      cases h
    · rw [herror before x after e hxs hbefore hx] at h
      exact ⟨before, x, after, e, hxs, hbefore, hx, (Except.error.inj h).symm⟩
  · rintro ⟨before, x, after, e, hxs, hbefore, hx, rfl⟩
    exact herror before x after e hxs hbefore hx

theorem findSome?_cons_eq_or (f : α → Option β) (x : α) (xs : List α) :
    (x :: xs).findSome? f = (f x).or (xs.findSome? f) := by
  rw [List.findSome?_cons]
  cases f x <;> rfl

/-- If no two items have a result, all orders have the same first result. -/
theorem findSome?_perm {f : α → Option β} {xs ys : List α} (perm : xs.Perm ys)
    (sole : xs.Pairwise fun x y => f x = none ∨ f y = none) : xs.findSome? f = ys.findSome? f := by
  induction perm with
  | nil => rfl
  | cons x _ ih =>
    rw [findSome?_cons_eq_or, findSome?_cons_eq_or, ih (List.pairwise_cons.mp sole).2]
  | swap x y xs =>
    have hnone : f y = none ∨ f x = none := (List.pairwise_cons.mp sole).1 x (List.mem_cons_self ..)
    rw [findSome?_cons_eq_or, findSome?_cons_eq_or, findSome?_cons_eq_or, findSome?_cons_eq_or]
    rcases hnone with h | h
    · rw [h, Option.none_or, Option.none_or]
    · rw [h, Option.none_or, Option.none_or]
  | trans perm _ ih ih' =>
    rw [ih sole]
    exact ih' ((perm.pairwise_iff Or.symm).mp sole)

/-- Then the result of any item is the first. -/
theorem findSome?_of_mem {f : α → Option β} {xs : List α} {x : α} {b : β}
    (sole : xs.Pairwise fun x y => f x = none ∨ f y = none) (hx : x ∈ xs) (h : f x = some b) :
    xs.findSome? f = some b := by
  obtain ⟨before, after, rfl⟩ := List.append_of_mem hx
  rw [findSome?_perm List.perm_middle sole, findSome?_cons_eq_or, h, Option.some_or]

end ExtensionKit
