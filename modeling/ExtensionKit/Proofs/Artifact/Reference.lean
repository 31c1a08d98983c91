import ExtensionKit.Artifact.Reference
import Mathlib.Data.List.Nodup

/-!
# What a reference tells

A key is the text of a scope, a separator and a name, and nothing in it says where the separator is. So a
key can be read in as many ways as there are separators in it, of any of the three kinds, and
`Reference.readings` lists them. A key that can be read in one way belongs to one artifact.

Scopes are what makes keys ambiguous. As long as a scope has no slash and no dot, the first of these
characters in the key begins the separator, and it does not matter what the name is
(`ArtifactName.key_inj`).
-/

namespace ExtensionKit

/-- What stands between the scope and the name in a key. -/
def ArtifactKind.separator : ArtifactKind → String
  | .activity => "/activity/"
  | .trigger => "/trigger/"
  | .function => "."

/-- A separator tells the kind, whatever comes after it. -/
theorem ArtifactKind.separator_inj {k l : ArtifactKind} {rest other : List Char}
    (h : k.separator.toList ++ rest = l.separator.toList ++ other) : k = l := by
  cases k <;> cases l <;> first
    | rfl
    | exact absurd (List.cons.inj h).1 (by decide)
    | exact absurd (List.cons.inj (List.cons.inj h).2).1 (by decide)

namespace Reference

/-- The text of a key is the scope, the separator of the kind and the name. -/
theorem text_derive (kind : ArtifactKind) (scope name : String) :
    (derive kind scope name).text = scope ++ kind.separator ++ name := by
  cases kind <;> rfl

/-- Among artifacts of one kind and name, the key tells the extension or category. -/
theorem scope_inj (kind : ArtifactKind) {scope other name : String}
    (h : (derive kind scope name).text = (derive kind other name).text) : scope = other := by
  rw [text_derive, text_derive] at h
  exact (String.append_left_inj _).mp ((String.append_left_inj _).mp h)

/-- Among artifacts of one kind and one extension or category, the key tells the name. -/
theorem name_inj (kind : ArtifactKind) {scope name other : String}
    (h : (derive kind scope name).text = (derive kind scope other).text) : name = other := by
  rw [text_derive, text_derive] at h
  exact (String.append_right_inj _).mp h

end Reference

/-- What an artifact is called: its kind, its extension or category, and its name there. -/
structure ArtifactName where
  /-- the kind -/
  kind : ArtifactKind
  /-- the extension or the category -/
  scope : String
  /-- the name within the scope -/
  name : String
deriving DecidableEq, Repr

namespace ArtifactName

/-- The key of an artifact of this name. -/
def key (n : ArtifactName) : Reference := .derive n.kind n.scope n.name

/-- A name whose scope has no character that begins a separator. -/
def PlainScope (n : ArtifactName) : Prop := '/' ∉ n.scope.toList ∧ '.' ∉ n.scope.toList

instance (n : ArtifactName) : Decidable n.PlainScope := inferInstanceAs (Decidable (_ ∧ _))

variable {m n : ArtifactName}

theorem key_eq_iff {r : Reference} :
    n.key = r ↔ n.scope.toList ++ n.kind.separator.toList ++ n.name.toList = r.text.toList := by
  rw [← String.toList_append, ← String.toList_append, String.toList_inj, ← Reference.text_derive]
  constructor
  · rintro rfl
    rfl
  · intro h
    cases r
    exact congrArg Reference.mk h

/-- **Among the artifacts of one kind**, those with one key agree in the scope exactly if they agree in the
name. -/
theorem scope_eq_iff (hkind : m.kind = n.kind) (h : m.key = n.key) :
    m.scope = n.scope ↔ m.name = n.name := by
  obtain ⟨kind, scope, name⟩ := m
  obtain ⟨kind', scope', name'⟩ := n
  cases hkind
  have htext := congrArg Reference.text h
  constructor
  · rintro rfl
    exact Reference.name_inj kind htext
  · rintro rfl
    exact Reference.scope_inj kind htext

/-- A plain scope ends where the first slash or dot of the key stands. -/
theorem PlainScope.takeWhile_key (h : n.PlainScope) :
    n.key.text.toList.takeWhile (fun c => c ≠ '/' ∧ c ≠ '.') = n.scope.toList := by
  have hscope : ∀ c ∈ n.scope.toList, decide (c ≠ '/' ∧ c ≠ '.') = true := by
    intro c hc
    refine decide_eq_true ⟨?_, ?_⟩
    · rintro rfl
      exact h.1 hc
    · rintro rfl
      exact h.2 hc
  have hrest : (n.kind.separator.toList ++ n.name.toList).takeWhile
      (fun c => c ≠ '/' ∧ c ≠ '.') = [] := by
    cases n.kind <;> rfl
  rw [← key_eq_iff.mp rfl, List.append_assoc, List.takeWhile_append_of_pos hscope, hrest,
    List.append_nil]

/-- **Plain scopes make keys injective**, over all kinds together and whatever the names are. -/
theorem key_inj (hm : m.PlainScope) (hn : n.PlainScope) (h : m.key = n.key) : m = n := by
  have hscope : m.scope = n.scope := by
    rw [← String.toList_inj, ← hm.takeWhile_key, ← hn.takeWhile_key, h]
  have hrest : m.kind.separator.toList ++ m.name.toList =
      n.kind.separator.toList ++ n.name.toList := by
    have htext := key_eq_iff.mp h
    rw [← key_eq_iff.mp rfl, hscope, List.append_assoc, List.append_assoc] at htext
    exact List.append_cancel_left htext
  have hkind : m.kind = n.kind := ArtifactKind.separator_inj hrest
  have hname : m.name = n.name := (scope_eq_iff hkind h).mp hscope
  cases m
  cases n
  cases hkind
  cases hscope
  cases hname
  rfl

end ArtifactName

/-! ## All readings of a key -/

/-- The parts of a text before and after each place where a separator stands. -/
def cuts (separator : List Char) : List Char → List (List Char × List Char)
  | [] => []
  | c :: rest =>
    let later := (cuts separator rest).map fun p => (c :: p.1, p.2)
    if separator <+: c :: rest then ([], (c :: rest).drop separator.length) :: later else later

/-- The cuts of a text are the pairs of texts around a separator that give the text. -/
theorem mem_cuts {separator : List Char} (hne : separator ≠ []) {text before after : List Char} :
    (before, after) ∈ cuts separator text ↔ before ++ separator ++ after = text := by
  induction text generalizing before with
  | nil =>
    refine iff_of_false List.not_mem_nil fun h => ?_
    exact hne (List.append_eq_nil_iff.mp (List.append_eq_nil_iff.mp h).1).2
  | cons c rest ih =>
    rw [cuts]
    cases before with
    | nil =>
      have hlater : ([], after) ∉ (cuts separator rest).map fun p => (c :: p.1, p.2) := by simp
      rw [List.nil_append]
      split
      · next hprefix =>
        rw [List.mem_cons, or_iff_left hlater, Prod.mk.injEq, and_iff_right rfl,
          ← List.append_right_inj separator, List.prefix_iff_eq_append.mp hprefix]
      · next hprefix => exact iff_of_false hlater fun h => hprefix ⟨after, h⟩
    | cons d before =>
      have hlater : (d :: before, after) ∈ (cuts separator rest).map (fun p => (c :: p.1, p.2)) ↔
          d :: before ++ separator ++ after = c :: rest := by
        rw [List.cons_append, List.cons_append, List.cons.injEq, ← ih, List.mem_map]
        constructor
        · rintro ⟨p, hp, heq⟩
          obtain ⟨hhead, rfl⟩ := Prod.mk.inj heq
          obtain ⟨rfl, rfl⟩ := List.cons.inj hhead
          exact ⟨rfl, hp⟩
        · rintro ⟨rfl, hp⟩
          exact ⟨_, hp, rfl⟩
      split
      · rw [List.mem_cons, or_iff_right (by simp), hlater]
      · exact hlater

theorem nodup_cuts (separator text : List Char) : (cuts separator text).Nodup := by
  induction text with
  | nil => exact .nil
  | cons c rest ih =>
    have hlater : ((cuts separator rest).map fun p => (c :: p.1, p.2)).Nodup := by
      refine ih.map fun p q h => ?_
      simpa [Prod.ext_iff] using h
    rw [cuts]
    split
    · refine List.nodup_cons.mpr ⟨?_, hlater⟩
      simp
    · exact hlater

namespace Reference

/-- The names that a key can be read as. -/
def readings (r : Reference) : List ArtifactName :=
  [ArtifactKind.activity, .trigger, .function].flatMap fun kind =>
    (cuts kind.separator.toList r.text.toList).map fun p =>
      ⟨kind, String.ofList p.1, String.ofList p.2⟩

/-- **The readings of a key** are the names that have it. -/
theorem mem_readings {r : Reference} {n : ArtifactName} : n ∈ r.readings ↔ n.key = r := by
  have hkind : n.kind ∈ [ArtifactKind.activity, .trigger, .function] := by
    cases n.kind <;> decide
  have hne : n.kind.separator.toList ≠ [] := by
    cases n.kind <;> decide
  rw [ArtifactName.key_eq_iff, ← mem_cuts hne, readings, List.mem_flatMap]
  constructor
  · rintro ⟨kind, -, hmem⟩
    obtain ⟨p, hp, rfl⟩ := List.mem_map.mp hmem
    rwa [String.toList_ofList, String.toList_ofList]
  · intro hp
    refine ⟨n.kind, hkind, List.mem_map.mpr ⟨_, hp, ?_⟩⟩
    rw [String.ofList_toList, String.ofList_toList]

example : (activity "e" "a.b").readings =
    [⟨.activity, "e", "a.b"⟩, ⟨.function, "e/activity/a", "b"⟩] := by decide

theorem nodup_readings (r : Reference) : r.readings.Nodup := by
  rw [readings, List.nodup_flatMap]
  constructor
  · intro kind _
    refine (nodup_cuts _ _).map fun p q h => ?_
    obtain ⟨-, hscope, hname⟩ := ArtifactName.mk.inj h
    exact Prod.ext (String.ofList_injective hscope) (String.ofList_injective hname)
  · -- readings of different kinds are different
    have hne : [ArtifactKind.activity, .trigger, .function].Pairwise (· ≠ ·) := by decide
    refine hne.imp fun {k l} hkl => ?_
    intro n hk hl
    obtain ⟨p, -, rfl⟩ := List.mem_map.mp hk
    obtain ⟨q, -, heq⟩ := List.mem_map.mp hl
    exact hkl (ArtifactName.mk.inj heq).1.symm

/-- **A key with one reading belongs to one name.** -/
theorem readings_eq_singleton_iff {n : ArtifactName} :
    n.key.readings = [n] ↔ ∀ m : ArtifactName, m.key = n.key → m = n := by
  constructor
  · intro h m hm
    rw [← mem_readings, h] at hm
    exact List.mem_singleton.mp hm
  · intro h
    have hall : ∀ m ∈ n.key.readings, m = n := fun m hm => h m (mem_readings.mp hm)
    have hmem : n ∈ n.key.readings := mem_readings.mpr rfl
    have hnodup := n.key.nodup_readings
    rcases hr : n.key.readings with _ | ⟨a, _ | ⟨b, rest⟩⟩
    · rw [hr] at hmem
      cases hmem
    · rw [hall a (by rw [hr]; exact List.mem_cons_self ..)]
    · rw [hr] at hall hnodup
      have hab : a = b := (hall a (by simp)).trans (hall b (by simp)).symm
      exact absurd hab (List.ne_of_not_mem_cons (List.nodup_cons.mp hnodup).1)

end Reference

end ExtensionKit
