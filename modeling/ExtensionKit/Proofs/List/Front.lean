/-!
# The front of a list

A list is its longest front of items with a property and a rest that begins with none (`exists_front`). What
a list begins with, and what is dropped from its front, does not change if something else is put behind the
list, as long as there is something left to begin with. An item that is not in the front tells where it ends
(`append_cons_inj`).
-/

namespace ExtensionKit

/-- The items of a property that a list begins with, and what comes after them. -/
theorem exists_front (p : α → Bool) (as : List α) :
    ∃ front rest, as = front ++ rest ∧ (∀ a ∈ front, p a = true) ∧
      ∀ a more, rest = a :: more → p a = false := by
  refine ⟨as.takeWhile p, as.dropWhile p, List.takeWhile_append_dropWhile.symm,
    List.all_eq_true.mp List.all_takeWhile, fun a more h => ?_⟩
  have hnot := List.head?_dropWhile_not p as
  rw [h] at hnot
  exact hnot

/-- What is dropped from the front ends in the list if something is left of it. -/
theorem dropWhile_append_of_ne_nil {p : α → Bool} {as : List α} (h : as.dropWhile p ≠ [])
    (after : List α) : (as ++ after).dropWhile p = as.dropWhile p ++ after := by
  rw [List.dropWhile_append, if_neg]
  rwa [List.isEmpty_iff]

/-- What a list begins with it begins with whatever follows. -/
theorem begins_of_ne_nil {p : α → Prop} {as rest : List α} (hne : as ≠ [])
    (h : ∀ a more, as ++ rest = a :: more → p a) (after : List α) :
    ∀ a more, as ++ after = a :: more → p a := by
  obtain ⟨b, as, rfl⟩ := List.exists_cons_of_ne_nil hne
  intro a more hmore
  obtain ⟨rfl, -⟩ := List.cons.inj hmore
  exact h _ _ rfl

/-- What two lists begin with, one of them empty or not, their join begins with. -/
theorem begins_append {p : α → Prop} {as rest after : List α}
    (h : ∀ a more, as ++ rest = a :: more → p a) (hafter : ∀ a more, after = a :: more → p a) :
    ∀ a more, as ++ after = a :: more → p a := by
  by_cases hne : as = []
  · rw [hne]
    exact hafter
  · exact begins_of_ne_nil hne h after

/-- The first place of an item divides a list in one way. -/
theorem append_cons_inj {a : α} {front front' rest rest' : List α} (h : a ∉ front) (h' : a ∉ front')
    (heq : front ++ a :: rest = front' ++ a :: rest') : front = front' ∧ rest = rest' := by
  induction front generalizing front' with
  | nil =>
    cases front' with
    | nil => exact ⟨rfl, (List.cons.inj heq).2⟩
    | cons b front' =>
      obtain ⟨rfl, -⟩ := List.cons.inj heq
      exact absurd (List.mem_cons_self ..) h'
  | cons b front ih =>
    cases front' with
    | nil =>
      obtain ⟨rfl, -⟩ := List.cons.inj heq
      exact absurd (List.mem_cons_self ..) h
    | cons b' front' =>
      obtain ⟨rfl, hrest⟩ := List.cons.inj heq
      obtain ⟨rfl, hsame⟩ := ih (mt (List.mem_cons_of_mem b) h) (mt (List.mem_cons_of_mem b) h') hrest
      exact ⟨rfl, hsame⟩

end ExtensionKit
