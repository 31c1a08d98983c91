import ExtensionKit.Proofs.Json.Surroundings
import ExtensionKit.Proofs.Text.Blank
import ExtensionKit.Proofs.Typing.Fits

/-!
# White space around texts

Coercions to numbers, booleans and dates trim a text before they look at it, so what they make of it depends
on the trimmed text alone (`Coercion.apply_of_trim_eq`). Coercion to objects trims only to see whether there
is anything, and has the reader of JSON deal with the white space, of which that knows four characters.
-/

namespace ExtensionKit

namespace Json

variable {s t : String}

/-! ## Coercions that trim -/

theorem toFloat64_of_trim_eq (h : Text.trim s.toList = Text.trim t.toList) :
    (string s).toFloat64 = (string t).toFloat64.mapError fun e => { e with value := string s } := by
  rw [toFloat64, toFloat64, h]
  generalize Text.trim t.toList = cs
  cases cs with
  | nil => rfl
  | cons c cs =>
    dsimp only
    cases Binary64.ofText? (c :: cs) with
    | none => rfl
    | some x =>
      dsimp only
      rw [requireFinite, requireFinite]
      split <;> rfl

theorem toInt64_of_trim_eq (h : Text.trim s.toList = Text.trim t.toList) :
    (string s).toInt64 = (string t).toInt64.mapError fun e => { e with value := string s } := by
  rw [toInt64, toInt64, h]
  generalize Text.trim t.toList = cs
  cases cs with
  | nil => rfl
  | cons c cs =>
    dsimp only
    cases integerOfText? (c :: cs) with
    | ok i => rfl
    | error fault =>
      dsimp only
      cases (Binary64.ofText? (c :: cs)).bind truncated? with
      | none => rfl
      | some i => rfl

theorem toBool_of_trim_eq (h : Text.trim s.toList = Text.trim t.toList) :
    (string s).toBool = (string t).toBool.mapError fun e => { e with value := string s } := by
  rw [toBool, toBool, Text.trimmed, Text.trimmed, h]
  split
  · rfl
  · split <;> rfl

theorem toDateTime_of_trim_eq (h : Text.trim s.toList = Text.trim t.toList) :
    (string s).toDateTime = (string t).toDateTime.mapError fun e => { e with value := string s } := by
  rw [toDateTime, toDateTime, h]
  cases DateTime.ofText? (Text.trim t.toList) with
  | none => rfl
  | some date => rfl

/-! ## Coercion to objects -/

/-- The white space of JSON is white space. -/
theorem isBlank_of_isSpace {c : Char} (h : isSpace c = true) : Text.isBlank c = true := by
  rcases isSpace_iff.mp h with rfl | rfl | rfl | rfl <;> decide

/-- White space of JSON around an object changes nothing. -/
theorem readObject_padded {before after cs : List Char} (hbefore : ∀ c ∈ before, isSpace c = true)
    (hafter : ∀ c ∈ after, isSpace c = true) {ms : Members} :
    readObject (before ++ cs ++ after) = .ok ms ↔ readObject cs = .ok ms := by
  rw [readObject_append_spaces hafter, readObject_spaces_append hbefore]

/-- A text is coerced to an object if it is blank, or else if it is read as one. -/
theorem toObject_eq_ok_iff {ms : Members} :
    (string s).toObject = .ok ms ↔
      Text.trim s.toList = [] ∧ ms = [] ∨ Text.trim s.toList ≠ [] ∧ readObject s.toList = .ok ms := by
  rw [toObject]
  split
  · next hblank =>
    rw [Except.ok.injEq]
    simp only [hblank, true_and, ne_eq, not_true_eq_false, false_and, or_false]
    exact eq_comm
  · next hblank =>
    have hne : Text.trim s.toList ≠ [] := hblank
    simp only [hne, false_and, false_or, ne_eq, not_false_eq_true, true_and]
    split
    · next members hread => rw [hread, Except.ok.injEq, Except.ok.injEq]
    · next fault hread =>
      rw [hread]
      exact ⟨nofun, nofun⟩

theorem toObject_padded {u v : String} (hu : ∀ c ∈ u.toList, isSpace c = true)
    (hv : ∀ c ∈ v.toList, isSpace c = true) {ms : Members} :
    (string (u ++ s ++ v)).toObject = .ok ms ↔ (string s).toObject = .ok ms := by
  have htrim : Text.trim (u.toList ++ s.toList ++ v.toList) = Text.trim s.toList :=
    Text.trim_padded (fun c hc => isBlank_of_isSpace (hu c hc)) (fun c hc => isBlank_of_isSpace (hv c hc)) _
  rw [toObject_eq_ok_iff, toObject_eq_ok_iff, String.toList_append, String.toList_append, htrim,
    readObject_padded hu hv]

end Json

theorem mapError_eq_ok_iff {f : ε → ε'} {r : Except ε α} {a : α} :
    r.mapError f = .ok a ↔ r = .ok a := by
  cases r with
  | error e => exact ⟨nofun, nofun⟩
  | ok b => rw [Except.mapError, Except.ok.injEq, Except.ok.injEq]

namespace Coercion

/-- **Coercions that trim** make the same of two texts that are trimmed to the same. Only an error tells which
of the two it was. -/
theorem apply_of_trim_eq {c : Coercion} (hc : c ∈ [toFloat64, toInt64, toBool, toDateTime]) {s t : String}
    (h : Text.trim s.toList = Text.trim t.toList) :
    c.apply (.string s) = (c.apply (.string t)).mapError fun e => { e with value := .string s } := by
  simp only [List.mem_cons, List.not_mem_nil, or_false] at hc
  rcases hc with rfl | rfl | rfl | rfl
  · rw [apply, Json.toFloat64_of_trim_eq h, apply]
    cases (Json.string t).toFloat64 <;> rfl
  · rw [apply, Json.toInt64_of_trim_eq h, apply]
    cases (Json.string t).toInt64 <;> rfl
  · rw [apply, Json.toBool_of_trim_eq h, apply]
    cases (Json.string t).toBool <;> rfl
  · rw [apply, Json.toDateTime_of_trim_eq h, apply]
    cases (Json.string t).toDateTime <;> rfl

theorem toObject_apply_of_imp {raw raw' : Json} {x : Value}
    (h : ∀ ms, raw.toObject = .ok ms → raw'.toObject = .ok ms) (hx : toObject.apply raw = .ok x) :
    toObject.apply raw' = .ok x := by
  obtain ⟨ms, hms, rfl⟩ := map_eq_ok hx
  rw [apply, h ms hms]
  rfl

/-! ## The main statement -/

/-- **White space around a text changes no coercion.** Coercions to numbers, booleans and dates take a text
with any white space around it exactly if they take the text alone, and to the same value. So does coercion to
objects, if the white space is that of JSON: spaces, tabs, line feeds and carriage returns. -/
theorem apply_padded (s u v : String) (x : Value) :
    ((∀ c ∈ u.toList, Text.isBlank c = true) → (∀ c ∈ v.toList, Text.isBlank c = true) →
      ∀ c ∈ [toFloat64, toInt64, toBool, toDateTime],
        c.apply (.string (u ++ s ++ v)) = .ok x ↔ c.apply (.string s) = .ok x) ∧
    ((∀ c ∈ u.toList, Json.isSpace c = true) → (∀ c ∈ v.toList, Json.isSpace c = true) →
      (toObject.apply (.string (u ++ s ++ v)) = .ok x ↔ toObject.apply (.string s) = .ok x)) := by
  constructor
  · intro hu hv c hc
    have htrim : Text.trim (u ++ s ++ v).toList = Text.trim s.toList := by
      rw [String.toList_append, String.toList_append]
      exact Text.trim_padded hu hv s.toList
    rw [apply_of_trim_eq hc htrim]
    exact mapError_eq_ok_iff
  · intro hu hv
    exact ⟨toObject_apply_of_imp fun ms => (Json.toObject_padded hu hv).mp,
      toObject_apply_of_imp fun ms => (Json.toObject_padded hu hv).mpr⟩

/-- An integer between an ideographic space and a no-break space, and an object between the white space of
JSON; an ideographic space before the object is a fault. -/
theorem apply_padded_ideographic :
    toInt64.apply (.string "\u3000-42\u00a0\t") = .ok (.int64 (-42)) ∧
      toObject.apply (.string "\n\t\x7b\"a\" : [1 ]\x7d\r ") =
        .ok (.object [("a", .array [.number (.integer 1 (by decide))])]) ∧
      ∃ position, toObject.apply (.string "\u3000\x7b\x7d") = .error ⟨.string "\u3000\x7b\x7d", .object,
        some (.notObject (.unreadable .expectedValue position))⟩ := by
  have hint := (apply_padded "-42" "\u3000" "\u00a0\t" (.int64 (-42))).1
    (List.all_eq_true.mp (by decide)) (List.all_eq_true.mp (by decide)) toInt64 (by simp)
  have hobject := (apply_padded "\x7b\"a\" : [1 ]\x7d" "\n\t" "\r "
    (.object [("a", .array [.number (.integer 1 (by decide))])])).2
    (List.all_eq_true.mp (by decide)) (List.all_eq_true.mp (by decide))
  exact ⟨hint.mpr rfl, hobject.mpr rfl, _, rfl⟩

end Coercion

end ExtensionKit
