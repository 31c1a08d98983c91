import ExtensionKit.Json.Object
import ExtensionKit.Proofs.Json.Enclosed
import Mathlib.Data.List.TakeWhile

/-!
# White space around an object

A text is read as an object exactly if it is the text of the object, from brace to brace, with white space
around it (`readObject_eq_ok_iff`). So more white space on either side changes nothing: before the object it
is skipped, and behind the closing brace it is allowed like that which is there already.
-/

namespace ExtensionKit.Json

variable {cs : List Char}

/-- Nothing is left exactly of white space alone. -/
theorem skipSpace_eq_nil_iff {cs : List Char} : skipSpace cs = [] ↔ ∀ c ∈ cs, isSpace c = true :=
  List.dropWhile_eq_nil_iff

/-- A text is read exactly if it is a value with white space around it. -/
theorem read_eq_ok_iff {j : Json} :
    read cs = .ok j ↔
      ∃ after, readValue greatestDepth (skipSpace cs) = .ok (j, after) ∧ skipSpace after = [] := by
  rw [read]
  constructor
  · intro h
    split at h
    · cases h
    · next value after hvalue =>
      split at h
      · next hafter =>
        cases h
        exact ⟨after, hvalue, hafter⟩
      · cases h
  · rintro ⟨after, hvalue, hafter⟩
    simp only [hvalue, hafter]

/-- What stands between the braces of an object. -/
def Encloses (inside : List Char) (ms : Members) : Prop :=
  ∀ after, readValue greatestDepth ('\x7b' :: (inside ++ '\x7d' :: after)) = .ok (.object ms, after)

/-- **An object is read from a text** exactly if the text is that of the object with white space around. -/
theorem readObject_eq_ok_iff {ms : Members} :
    readObject cs = .ok ms ↔
      ∃ inside after, skipSpace cs = '\x7b' :: (inside ++ '\x7d' :: after) ∧
        (∀ c ∈ after, isSpace c = true) ∧ Encloses inside ms := by
  constructor
  · intro h
    rw [readObject.eq_def] at h
    split at h
    · next text hskip =>
      split at h
      · next members hread =>
        cases h
        obtain ⟨after, hvalue, hafter⟩ := read_eq_ok_iff.mp hread
        rw [hskip] at hvalue
        obtain ⟨ms, inside, hms, rfl, hinside⟩ :=
          exists_of_readValue_object (fun d _ => isLocal_readValue d) hvalue
        cases hms
        exact ⟨inside, after, hskip, skipSpace_eq_nil_iff.mp hafter, hinside⟩
      · cases h
      · cases h
    · cases h
    · split at h <;> cases h
  · rintro ⟨inside, after, hskip, hafter, hinside⟩
    have hread : read cs = .ok (.object ms) :=
      read_eq_ok_iff.mpr ⟨after, by rw [hskip]; exact hinside after, skipSpace_eq_nil_iff.mpr hafter⟩
    rw [readObject, hskip]
    simp only [hread]

/-- White space before a text is not looked at. -/
theorem readObject_spaces_append {spaces : List Char} (h : ∀ c ∈ spaces, isSpace c = true) {ms : Members} :
    readObject (spaces ++ cs) = .ok ms ↔ readObject cs = .ok ms := by
  rw [readObject_eq_ok_iff, readObject_eq_ok_iff, skipSpace_append h]

/-- Nor is white space after it: it comes after the brace that closes the object. -/
theorem readObject_append_spaces {spaces : List Char} (h : ∀ c ∈ spaces, isSpace c = true) {ms : Members} :
    readObject (cs ++ spaces) = .ok ms ↔ readObject cs = .ok ms := by
  have hbrace : '\x7d' ∉ spaces := fun hmem => absurd (h _ hmem) (by decide)
  rw [readObject_eq_ok_iff, readObject_eq_ok_iff]
  constructor
  · rintro ⟨inside, after, hskip, hafter, hinside⟩
    have hne : skipSpace cs ≠ [] := by
      intro hnil
      rw [skipSpace_append (skipSpace_eq_nil_iff.mp hnil), skipSpace_eq_nil_iff.mpr h] at hskip
      cases hskip
    rw [skipSpace, dropWhile_append_of_ne_nil hne, ← List.cons_append] at hskip
    rcases List.append_eq_append_iff.mp hskip with ⟨more, -, hspaces⟩ | ⟨more, htext, hclose⟩
    · exact absurd (hspaces ▸ List.mem_append_right more (List.mem_cons_self ..)) hbrace
    · cases more with
      | nil =>
        rw [List.nil_append] at hclose
        exact absurd (hclose ▸ List.mem_cons_self ..) hbrace
      | cons c more =>
        obtain ⟨rfl, rfl⟩ := List.cons.inj hclose
        exact ⟨inside, more, htext, fun c hc => hafter c (List.mem_append_left _ hc), hinside⟩
  · rintro ⟨inside, after, hskip, hafter, hinside⟩
    refine ⟨inside, after ++ spaces, ?_, List.forall_mem_append.mpr ⟨hafter, h⟩, hinside⟩
    have hne : skipSpace cs ≠ [] := by
      rw [hskip]
      exact List.cons_ne_nil _ _
    have happend : skipSpace (cs ++ spaces) = skipSpace cs ++ spaces := dropWhile_append_of_ne_nil hne spaces
    rw [happend, hskip]
    simp only [List.cons_append, List.append_assoc]

end ExtensionKit.Json
