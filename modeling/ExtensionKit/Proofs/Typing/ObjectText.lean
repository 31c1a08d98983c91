import ExtensionKit.Proofs.Json.Depth
import ExtensionKit.Proofs.Text.Blank
import ExtensionKit.Typing.Coercion

/-!
# Objects as text

Coercion to text writes an object as JSON, and coercion to objects reads it back. What comes back is the
object that was written, with all members in their order, if it nests no deeper than the reader allows;
the text of a deeper one is refused (`Coercion.toObject_toString`).
-/

namespace ExtensionKit

namespace Json

/-- The text of an object begins with a brace. -/
theorem compact_object (ms : Members) :
    (object ms).compact = '\x7b' :: (compactMembers ms ++ ['\x7d']) := by
  rw [compact, List.cons_append]

/-- The text of an object is neither blank nor trimmed. -/
theorem trim_compact_object (ms : Members) : Text.trim (object ms).compact = (object ms).compact := by
  have hlast : (object ms).compact = ('\x7b' :: compactMembers ms) ++ ['\x7d'] := compact_object ms
  exact Text.trim_eq_self (compact_object ms) hlast (by decide) (by decide)

/-- The text of an object is read like the text of any value. -/
theorem readObject_compact (ms : Members) :
    readObject (object ms).compact =
      match read (object ms).compact with
      | .ok (.object members) => .ok members
      | .ok other => .error (.notObject other (positionBefore [] (object ms).compact))
      | .error f => .error (f.toFault (object ms).compact) := by
  rw [compact_object]
  rfl

/-- The text of an object is coerced by reading it. -/
theorem toObject_of_readObject {ms members : Members} (h : readObject (object ms).compact = .ok members) :
    (string (object ms).text).toObject = .ok members := by
  have htrim := trim_compact_object ms
  rw [compact_object] at htrim h
  rw [text, compact_object]
  simp only [toObject, String.toList_ofList, htrim, h]

theorem toObject_of_readObject_error {ms : Members} {fault : Fault}
    (h : readObject (object ms).compact = .error fault) :
    (string (object ms).text).toObject =
      .error ⟨string (object ms).text, .object, some (.notObject fault)⟩ := by
  have htrim := trim_compact_object ms
  rw [compact_object] at htrim h
  rw [text, compact_object]
  simp only [toObject, String.toList_ofList, htrim, h, CoercionError.refuseFor]

/-- An object that does not nest too deeply is coerced back from its text. -/
theorem toObject_text {ms : Members} (plain : (object ms).Plain)
    (hdepth : (object ms).depth ≤ greatestDepth) : (string (object ms).text).toObject = .ok ms := by
  have hread := (plain.readable hdepth).read_text
  rw [text, String.toList_ofList] at hread
  apply toObject_of_readObject
  rw [readObject_compact, hread]

/-- An object that nests too deeply is not coerced back. -/
theorem toObject_text_of_tooDeep {ms : Members} (plain : (object ms).Plain)
    (hdepth : greatestDepth < (object ms).depth) :
    ∃ position, (string (object ms).text).toObject =
      .error ⟨string (object ms).text, .object, some (.notObject (.unreadable .tooDeep position))⟩ := by
  obtain ⟨f, hf, hcause⟩ := plain.tooDeep hdepth [] stops_nil
  have hopens : Opens ((object ms).compact ++ []) := plain.opens stops_nil
  rw [List.append_nil] at hf hopens
  have hread : read (object ms).compact = .error f := by
    rw [read, skipSpace_of_opens hopens, hf]
  have hobject : readObject (object ms).compact = .error (f.toFault (object ms).compact) := by
    rw [readObject_compact, hread]
  rw [Failure.toFault, hcause] at hobject
  exact ⟨f.position (object ms).compact, toObject_of_readObject_error hobject⟩

end Json

/-! ## The main statement -/

/-- **Objects come back from their text.** Coercion to text takes every object to a text. If the numbers of
the object are integers and no object within it repeats a key, then coercion to objects takes this text back
to the same object if brackets and braces nest at most 127 deep, and else refuses it for nesting too
deeply. -/
theorem Coercion.toObject_toString {ms : Members} (plain : (Json.object ms).Plain) :
    ∃ s, Coercion.toString.apply (.object ms) = .ok (.string s) ∧
      ((Json.object ms).depth ≤ 127 → Coercion.toObject.apply (.string s) = .ok (.object ms)) ∧
      (128 ≤ (Json.object ms).depth → ∃ position, Coercion.toObject.apply (.string s) =
        .error ⟨.string s, .object, some (.notObject (.unreadable .tooDeep position))⟩) := by
  refine ⟨(Json.object ms).text, rfl, ?_, ?_⟩
  · intro hdepth
    rw [Coercion.apply, Json.toObject_text plain hdepth]
    rfl
  · intro hdepth
    obtain ⟨position, h⟩ := Json.toObject_text_of_tooDeep plain hdepth
    refine ⟨position, ?_⟩
    rw [Coercion.apply, h]
    rfl

/-- Null within some brackets. -/
def Json.bracketed : Nat → Json
  | 0 => .null
  | n + 1 => .array [bracketed n]

theorem Json.plain_bracketed (n : Nat) : (bracketed n).Plain := by
  induction n with
  | zero => exact .null
  | succ n ih => exact .array (List.forall_mem_singleton.mpr ih)

theorem Json.depth_bracketed (n : Nat) : (bracketed n).depth = n := by
  induction n with
  | zero => rfl
  | succ n ih => rw [bracketed, depth, depthOfItems, depthOfItems, ih, Nat.max_zero]

/-- Both sides of the limit, with the ends of the range of integers and a key that is escaped. -/
theorem Coercion.toObject_toString_limit :
    let allowed : Members := [("\"", .number (.integer 18446744073709551615 (by decide))),
      ("", .number (.integer (-9223372036854775808) (by decide))), ("é", .bracketed 126)]
    let refused : Members := [("é", .bracketed 127)]
    (∃ s, Coercion.toString.apply (.object allowed) = .ok (.string s) ∧
      Coercion.toObject.apply (.string s) = .ok (.object allowed)) ∧
    ∃ s position, Coercion.toString.apply (.object refused) = .ok (.string s) ∧
      Coercion.toObject.apply (.string s) =
        .error ⟨.string s, .object, some (.notObject (.unreadable .tooDeep position))⟩ := by
  intro allowed refused
  have hallowed : (Json.object allowed).Plain := by
    refine .object (by decide) ?_
    simp only [allowed, List.forall_mem_cons]
    exact ⟨.integer _ _, .integer _ _, Json.plain_bracketed 126, nofun⟩
  have hrefused : (Json.object refused).Plain := by
    refine .object (by decide) ?_
    exact List.forall_mem_singleton.mpr (Json.plain_bracketed 127)
  obtain ⟨s, hs, htaken, -⟩ := Coercion.toObject_toString hallowed
  obtain ⟨t, ht, -, hdeep⟩ := Coercion.toObject_toString hrefused
  have hdepth : (Json.object refused).depth = 128 := by
    rw [Json.depth, Json.depthOfMembers, Json.depth_bracketed]
    rfl
  obtain ⟨position, hposition⟩ := hdeep (Nat.le_of_eq hdepth.symm)
  refine ⟨⟨s, hs, htaken ?_⟩, t, position, ht, hposition⟩
  rw [Json.depth, Json.depthOfMembers, Json.depthOfMembers, Json.depthOfMembers, Json.depth_bracketed]
  decide

end ExtensionKit
