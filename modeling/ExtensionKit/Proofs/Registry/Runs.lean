import ExtensionKit.Artifact.Registry
import Mathlib.Data.List.Dedup
import Mathlib.Data.String.Basic

/-!
# Runs of a registry

A run is any sequence of registrations. It is seen in two ways: by looking up keys, where a key belongs
to the first artifact that was registered under it (`Registry.get?_run`), and in the list of the entries,
which stays in the order of the keys (`Registry.Ordered.run`). If no key is taken when its turn comes,
every artifact is entered (`Registry.AllFree.entries_run`), and then the order of the registrations
leaves no trace (`Registry.run_perm`).
-/

namespace ExtensionKit

namespace Artifact

/-- An artifact under its key. -/
def entry (a : Artifact) : Reference × Artifact := (a.reference, a)

/-- The first artifact of a key. -/
def first? (as : List Artifact) (reference : Reference) : Option Artifact :=
  as.find? fun a => a.reference == reference

@[simp] theorem first?_nil (reference : Reference) : first? [] reference = none := rfl

theorem first?_cons (a : Artifact) (as : List Artifact) (reference : Reference) :
    first? (a :: as) reference =
      (if reference = a.reference then some a else none).or (first? as reference) := by
  rw [first?, List.find?_cons]
  by_cases h : reference = a.reference
  · rw [beq_iff_eq.mpr h.symm, if_pos h]
    rfl
  · rw [beq_false_of_ne (Ne.symm h), if_neg h]
    rfl

/-- An artifact is the first under a key exactly if the key is among those that are registered. -/
theorem isSome_first? {as : List Artifact} {key : Reference} :
    (first? as key).isSome ↔ key ∈ as.map reference := by
  rw [first?, List.find?_isSome, List.mem_map]
  simp only [beq_iff_eq]

theorem first?_eq_none_iff {as : List Artifact} {key : Reference} :
    first? as key = none ↔ key ∉ as.map reference := by
  rw [← isSome_first?, Option.not_isSome_iff_eq_none]

end Artifact

namespace Registry

/-- The registry after some registrations. -/
def run (r : Registry) (calls : List Artifact) : Registry :=
  calls.foldl (fun r a => (r.register a).value.1) r

/-- The entries are in the order of their keys, and no key occurs twice. -/
def Ordered (r : Registry) : Prop := r.entries.Pairwise fun a b => a.1.text < b.1.text

/-- All of these artifacts can be registered: no key is taken, and none occurs twice. -/
def AllFree (r : Registry) (as : List Artifact) : Prop :=
  (as.map Artifact.reference).Nodup ∧ ∀ a ∈ as, r.get? a.reference = none

variable {r : Registry} {a : Artifact} {as bs : List Artifact}

/-- The references of a registry are its taken keys. -/
theorem mem_references {reference : Reference} :
    reference ∈ r.references ↔ (r.get? reference).isSome := by
  rw [get?, List.lookup_isSome_iff, references, List.mem_map]
  refine exists_congr fun e => and_congr_right fun _ => ?_
  rw [beq_iff_eq, eq_comm]

/-! ## One registration -/

/-- A taken key is a conflict, and the registry stays as it is. -/
theorem register_of_taken (taken : (r.get? a.reference).isSome) :
    (r.register a).value = (r, .error (.conflict a.reference.text)) := by
  rw [register, if_pos taken]

theorem register_of_free (free : r.get? a.reference = none) :
    (r.register a).value = (⟨insertEntry a.reference a r.entries⟩, .ok a.reference) := by
  rw [register, if_neg (by rw [free]; exact Bool.false_ne_true)]

theorem lookup_cons_eq (reference key : Reference) (a : Artifact)
    (entries : List (Reference × Artifact)) :
    ((key, a) :: entries).lookup reference =
      if reference = key then some a else entries.lookup reference := by
  rw [List.lookup_cons]
  by_cases h : reference = key
  · rw [beq_iff_eq.mpr h, if_pos h]
  · rw [beq_false_of_ne h, if_neg h]

/-- A new entry is found under its key, and everything else as before. The entries that it is put behind
have other keys, since its own is free. -/
theorem lookup_insertEntry {key : Reference} {entries : List (Reference × Artifact)}
    (free : entries.lookup key = none) (reference : Reference) :
    (insertEntry key a entries).lookup reference =
      if reference = key then some a else entries.lookup reference := by
  induction entries with
  | nil => rw [insertEntry, lookup_cons_eq]
  | cons e rest ih =>
    obtain ⟨other, b⟩ := e
    rw [insertEntry]
    split
    · rw [lookup_cons_eq]
    · rw [lookup_cons_eq] at free
      split at free
      · cases free
      · next hne =>
        rw [lookup_cons_eq, lookup_cons_eq, ih free]
        by_cases hother : reference = other
        · rw [if_pos hother, if_pos hother, if_neg]
          rintro rfl
          exact hne hother
        · rw [if_neg hother, if_neg hother]

/-- **One registration**: it adds its artifact for a key that is free, and nothing else. -/
theorem get?_register (r : Registry) (a : Artifact) (reference : Reference) :
    (r.register a).value.1.get? reference =
      (r.get? reference).or (if reference = a.reference then some a else none) := by
  rcases hkey : r.get? a.reference with _ | b
  · rw [register_of_free hkey, get?, lookup_insertEntry hkey]
    by_cases h : reference = a.reference
    · rw [if_pos h, if_pos h, h, hkey]
      rfl
    · rw [if_neg h, if_neg h, Option.or_none]
      rfl
  · rw [register_of_taken (by rw [hkey]; rfl)]
    by_cases h : reference = a.reference
    · rw [h, hkey]
      rfl
    · rw [if_neg h, Option.or_none]

theorem perm_insertEntry (key : Reference) (a : Artifact) (entries : List (Reference × Artifact)) :
    (insertEntry key a entries).Perm ((key, a) :: entries) := by
  induction entries with
  | nil => exact .refl _
  | cons e rest ih =>
    rw [insertEntry]
    split
    · exact .refl _
    · exact (ih.cons e).trans (.swap ..)

/-- A free key is entered in its place. Entries are in the order of the texts of their keys, and different keys
have different texts. -/
theorem pairwise_insertEntry {key : Reference} {entries : List (Reference × Artifact)}
    (free : entries.lookup key = none) (ordered : entries.Pairwise fun a b => a.1.text < b.1.text) :
    (insertEntry key a entries).Pairwise fun a b => a.1.text < b.1.text := by
  induction entries with
  | nil => exact List.pairwise_singleton ..
  | cons e rest ih =>
    obtain ⟨other, b⟩ := e
    obtain ⟨hfirst, hrest⟩ := List.pairwise_cons.mp ordered
    rw [insertEntry]
    split
    · next hlt =>
      refine List.pairwise_cons.mpr ⟨fun c hc => ?_, ordered⟩
      rcases List.mem_cons.mp hc with rfl | hc
      · exact hlt
      · exact lt_trans hlt (hfirst c hc)
    · next hnot =>
      rw [lookup_cons_eq] at free
      split at free
      · cases free
      · next hne =>
        have hlt : other.text < key.text := by
          refine lt_of_le_of_ne (not_lt.mp hnot) fun heq => hne ?_
          cases key
          cases other
          exact congrArg _ heq.symm
        refine List.pairwise_cons.mpr ⟨fun c hc => ?_, ih free hrest⟩
        rcases List.mem_cons.mp ((perm_insertEntry ..).mem_iff.mp hc) with rfl | hc
        · exact hlt
        · exact hfirst c hc

/-- **The order of the entries** is kept by every registration. -/
theorem Ordered.register (h : r.Ordered) (a : Artifact) : (r.register a).value.1.Ordered := by
  rcases hkey : r.get? a.reference with _ | b
  · rw [register_of_free hkey]
    exact pairwise_insertEntry hkey h
  · rw [register_of_taken (by rw [hkey]; rfl)]
    exact h

/-! ## Runs -/

/-- **Every key belongs to the first artifact that was registered under it.** -/
theorem get?_run (r : Registry) (calls : List Artifact) (reference : Reference) :
    (r.run calls).get? reference = (r.get? reference).or (Artifact.first? calls reference) := by
  induction calls generalizing r with
  | nil => rw [Artifact.first?_nil, Option.or_none]; rfl
  | cons a rest ih =>
    rw [Artifact.first?_cons, ← Option.or_assoc, ← get?_register]
    exact ih _

/-- **Every run keeps the order.** -/
theorem Ordered.run (h : r.Ordered) (calls : List Artifact) : (r.run calls).Ordered := by
  induction calls generalizing r with
  | nil => exact h
  | cons a rest ih => exact ih (h.register a)

theorem ordered_empty : empty.Ordered := .nil

theorem get?_empty (reference : Reference) : empty.get? reference = none := rfl

/-! ## Artifacts that are all registered -/

theorem allFree_cons :
    r.AllFree (a :: as) ↔ r.get? a.reference = none ∧ (r.register a).value.1.AllFree as := by
  rw [AllFree, AllFree, List.map_cons, List.nodup_cons]
  simp only [get?_register, Option.or_eq_none_iff, List.forall_mem_cons]
  constructor
  · rintro ⟨⟨hfresh, hnodup⟩, hfree, hrest⟩
    refine ⟨hfree, hnodup, fun b hb => ⟨hrest b hb, if_neg fun heq => hfresh ?_⟩⟩
    exact heq ▸ List.mem_map_of_mem hb
  · rintro ⟨hfree, hnodup, hrest⟩
    refine ⟨⟨fun hmem => ?_, hnodup⟩, hfree, fun b hb => (hrest b hb).1⟩
    obtain ⟨b, hb, heq⟩ := List.mem_map.mp hmem
    have hnone := (hrest b hb).2
    rw [if_pos heq] at hnone
    cases hnone

/-- Of two lists the keys are all free if those of the second are after the first. -/
theorem allFree_append : r.AllFree (as ++ bs) ↔ r.AllFree as ∧ (r.run as).AllFree bs := by
  induction as generalizing r with
  | nil => exact (and_iff_right ⟨.nil, nofun⟩).symm
  | cons a rest ih =>
    rw [List.cons_append, allFree_cons, allFree_cons, ih, and_assoc]
    rfl

theorem allFree_singleton : r.AllFree [a] ↔ r.get? a.reference = none := by
  rw [allFree_cons]
  exact and_iff_left ⟨.nil, nofun⟩

/-- In an empty registry the keys of a list are free if they are distinct. -/
theorem allFree_empty : empty.AllFree as ↔ (as.map Artifact.reference).Nodup :=
  and_iff_left fun _ _ => get?_empty _

/-- **Artifacts that can all be registered are all entered**, next to what was there. -/
theorem AllFree.entries_run (h : r.AllFree as) :
    (r.run as).entries.Perm (as.map Artifact.entry ++ r.entries) := by
  induction as generalizing r with
  | nil => exact .refl _
  | cons a rest ih =>
    obtain ⟨hfree, hrest⟩ := allFree_cons.mp h
    refine (ih hrest).trans ?_
    rw [register_of_free hfree]
    exact ((perm_insertEntry ..).append_left _).trans List.perm_middle

/-- **If no key occurs twice, the order of the registrations leaves no trace.** The entries are the same up to
their order, and both registries have them in increasing order. -/
theorem run_perm {calls calls' : List Artifact} (perm : calls.Perm calls')
    (nodup : (calls.map Artifact.reference).Nodup) : empty.run calls' = empty.run calls := by
  have nodup' : (calls'.map Artifact.reference).Nodup := (perm.map _).nodup_iff.mp nodup
  have hentries : (empty.run calls').entries.Perm (empty.run calls).entries :=
    (allFree_empty.mpr nodup').entries_run.trans <|
      ((perm.symm.map _).append_right _).trans (allFree_empty.mpr nodup).entries_run.symm
  have heq : (empty.run calls').entries = (empty.run calls).entries :=
    hentries.eq_of_pairwise (fun _ _ _ _ hlt hgt => absurd hlt (lt_asymm hgt))
      (ordered_empty.run calls') (ordered_empty.run calls)
  exact congrArg Registry.mk heq

/-! ## The main statement -/

/-- A look-up by kind gives what the key belongs to, if that is of the kind, and else finds nothing. -/
theorem typed_lookups (r : Registry) (reference : Reference) :
    (∀ t, r.activity reference = .ok t ↔ r.get? reference = some (.activity t)) ∧
    (∀ t, r.trigger reference = .ok t ↔ r.get? reference = some (.trigger t)) ∧
    (∀ f, r.function reference = .ok f ↔ r.get? reference = some (.function f)) ∧
    ∀ e, r.activity reference = .error e ∨ r.trigger reference = .error e ∨
      r.function reference = .error e → e = .artifactNotFound reference.text := by
  rw [activity, trigger, function]
  rcases r.get? reference with _ | a
  · simp [eq_comm]
  · cases a <;> simp [eq_comm]

/-- **A registry keeps the first artifact of every key.** After any registrations in a new registry, and
whichever comes next:

* a key belongs to the first artifact that was registered under it;
* the keys are listed once each, in increasing order, and counted;
* the next registration is answered by the key exactly if the key is new, and else changes nothing;
* a look-up by kind finds what the key belongs to if it is of that kind, and nothing else;
* if no key occurs twice, the same registrations in another order give the same registry. -/
theorem run_keeps_first (calls : List Artifact) :
    let r := empty.run calls
    let keys := calls.map Artifact.reference
    (∀ reference, r.get? reference = calls.find? fun a => a.reference == reference) ∧
    (r.references.Pairwise (fun a b => a.text < b.text) ∧ r.references.Perm keys.dedup ∧
      r.size = keys.dedup.length) ∧
    (∀ next, ((r.register next).value.2 = .ok next.reference ↔ next.reference ∉ keys) ∧
      (next.reference ∈ keys →
        (r.register next).value = (r, .error (.conflict next.reference.text)))) ∧
    (∀ reference,
      (∀ t, r.activity reference = .ok t ↔ r.get? reference = some (.activity t)) ∧
      (∀ t, r.trigger reference = .ok t ↔ r.get? reference = some (.trigger t)) ∧
      (∀ f, r.function reference = .ok f ↔ r.get? reference = some (.function f)) ∧
      ∀ e, r.activity reference = .error e ∨ r.trigger reference = .error e ∨
        r.function reference = .error e → e = .artifactNotFound reference.text) ∧
    ∀ calls', calls.Perm calls' → keys.Nodup → empty.run calls' = r := by
  intro r keys
  have hget : ∀ reference, r.get? reference = Artifact.first? calls reference := fun reference => by
    rw [get?_run, get?_empty, Option.none_or]
  have hfree : ∀ reference, r.get? reference = none ↔ reference ∉ keys := fun reference => by
    rw [hget, Artifact.first?_eq_none_iff]
  have hordered : r.references.Pairwise fun a b => a.text < b.text :=
    List.pairwise_map.mpr (ordered_empty.run calls)
  have hperm : r.references.Perm keys.dedup := by
    have hnodup : r.references.Nodup := hordered.imp fun hlt heq => absurd (heq ▸ hlt) (lt_irrefl _)
    refine (List.perm_ext_iff_of_nodup hnodup keys.nodup_dedup).mpr fun reference => ?_
    rw [mem_references, List.mem_dedup, Option.isSome_iff_ne_none, ne_eq, hfree, not_not]
  have hsize : r.size = keys.dedup.length := by
    rw [← hperm.length_eq, references, List.length_map]
    rfl
  have htaken : ∀ next : Artifact, next.reference ∈ keys →
      (r.register next).value = (r, .error (.conflict next.reference.text)) := by
    intro next hmem
    refine register_of_taken (Option.isSome_iff_ne_none.mpr fun hnone => ?_)
    exact (hfree _).mp hnone hmem
  refine ⟨hget, ⟨hordered, hperm, hsize⟩, fun next => ⟨⟨fun hok hmem => ?_, fun hnew => ?_⟩,
    htaken next⟩, r.typed_lookups, fun calls' => run_perm⟩
  · rw [htaken next hmem] at hok
    cases hok
  · rw [register_of_free ((hfree _).mpr hnew)]

end Registry

end ExtensionKit
