import ExtensionKit.Declaration.Descriptor
import ExtensionKit.Proofs.Json.Reader

/-!
# What a descriptor's text says

The JSON value of a descriptor is readable, so its text determines it (`Json.Readable.eq_of_text`). And
the value determines the descriptor: its keys are distinct, every section is found under its own key, and
a section that is left out can only be the empty one.
-/

namespace ExtensionKit

/-- **A type is found by its name.** -/
theorem FieldType.ofExactName?_name (t : FieldType) : ofExactName? t.name = some t := by
  cases t <;> rfl

/-- Different types have different names. -/
theorem FieldType.name_inj {t u : FieldType} (h : t.name = u.name) : t = u := by
  have ht := ofExactName?_name t
  rw [h, ofExactName?_name u] at ht
  exact (Option.some.inj ht).symm

theorem Members.get?_append (ms ns : Members) (key : String) :
    (ms ++ ns).get? key = (ms.get? key).or (ns.get? key) :=
  List.lookup_append

theorem Members.get?_singleton (key : String) (value : Json) (k : String) :
    Members.get? [(key, value)] k = if k = key then some value else none := by
  rw [get?, List.lookup_cons]
  by_cases h : k = key
  · rw [if_pos h, h, beq_self_eq_true]
  · rw [if_neg h, beq_false_of_ne h]
    rfl

theorem Members.keys_append (ms ns : Members) : (ms ++ ns).keys = ms.keys ++ ns.keys :=
  List.map_append

namespace FieldDescriptor

theorem readable_toJson (f : FieldDescriptor) (depth : Nat) :
    Json.Readable (depth + 1) f.toJson := by
  have nodup : ["name", "type", "required"].Nodup := by decide
  refine .object nodup fun m hm => ?_
  simp only [List.mem_cons, List.not_mem_nil, or_false] at hm
  rcases hm with rfl | rfl | rfl
  · exact .string _
  · exact .string _
  · exact .bool _

theorem toJson_inj {f g : FieldDescriptor} (h : f.toJson = g.toJson) : f = g := by
  obtain ⟨name, type, required⟩ := f
  obtain ⟨name', type', required'⟩ := g
  simp only [toJson, Json.object.injEq, List.cons.injEq, Prod.mk.injEq, Json.string.injEq,
    Json.bool.injEq, true_and, and_true] at h
  obtain ⟨rfl, htype, rfl⟩ := h
  rw [FieldType.name_inj htype]

/-- The description of a field determines it. -/
theorem ofField_inj {f g : Field} (h : ofField f = ofField g) : f = g := by
  obtain ⟨name, type⟩ := f
  obtain ⟨hname, htype, -⟩ := FieldDescriptor.mk.inj h
  obtain ⟨name', type'⟩ := g
  cases hname
  cases htype
  rfl

end FieldDescriptor

namespace Descriptor

/-! ## Sections -/

/-- What is found under the key of a section. -/
def sectionValue : List FieldDescriptor → Option Json
  | [] => none
  | fields => some (.array (fields.map FieldDescriptor.toJson))

/-- The value of a section determines the fields of the section. -/
theorem sectionValue_inj {fields others : List FieldDescriptor}
    (h : sectionValue fields = sectionValue others) : fields = others := by
  cases fields with
  | nil =>
    cases others with
    | nil => rfl
    | cons g others => cases h
  | cons f fields =>
    cases others with
    | nil => cases h
    | cons g others =>
      have hmap := Json.array.inj (Option.some.inj h)
      exact List.map_inj_right (fun _ _ => FieldDescriptor.toJson_inj) |>.mp hmap

theorem get?_sectionMembers (key : String) (fields : List FieldDescriptor) (k : String) :
    (sectionMembers key fields).get? k = if k = key then sectionValue fields else none := by
  cases fields with
  | nil => exact (ite_self none).symm
  | cons f fields => exact Members.get?_singleton ..

theorem get?_resultMembers (result : Option FieldType) (k : String) :
    (resultMembers result).get? k =
      if k = "return" then result.map fun t => .string t.name else none := by
  cases result with
  | none => exact (ite_self none).symm
  | some t => exact Members.get?_singleton ..

theorem readable_sectionMembers {key : String} {fields : List FieldDescriptor} (depth : Nat) :
    ∀ m ∈ sectionMembers key fields, Json.Readable (depth + 2) m.2 := by
  intro m hm
  cases fields with
  | nil => cases hm
  | cons f fields =>
    rw [List.mem_singleton.mp hm]
    refine .array fun j hj => ?_
    obtain ⟨g, -, rfl⟩ := List.mem_map.mp hj
    exact g.readable_toJson depth

theorem readable_resultMembers {result : Option FieldType} (depth : Nat) :
    ∀ m ∈ resultMembers result, Json.Readable depth m.2 := by
  intro m hm
  cases result with
  | none => cases hm
  | some t =>
    rw [List.mem_singleton.mp hm]
    exact .string _

/-- A section has its key or none. -/
theorem keys_sectionMembers (key : String) (fields : List FieldDescriptor) :
    (sectionMembers key fields).keys.Sublist [key] := by
  cases fields with
  | nil => exact List.nil_sublist _
  | cons f fields => exact List.Sublist.refl _

theorem keys_resultMembers (result : Option FieldType) :
    (resultMembers result).keys.Sublist ["return"] := by
  cases result with
  | none => exact List.nil_sublist _
  | some t => exact List.Sublist.refl _

/-! ## The whole -/

/-- The members of a descriptor. -/
def members (d : Descriptor) : Members :=
  [("name", .string d.name)] ++ [("type", .string d.kind)] ++ [("ref", .string d.reference)] ++
    sectionMembers "settings" d.settings ++ sectionMembers "handler" d.handler ++
    sectionMembers "input" d.input ++ sectionMembers "output" d.output ++
    sectionMembers "args" d.arguments ++ resultMembers d.result ++
    [("fingerprint", .string d.fingerprint)]

theorem toJson_eq (d : Descriptor) : d.toJson = .object d.members := rfl

/-- No key is repeated, whichever sections are left out. -/
theorem nodup_keys_members (d : Descriptor) : d.members.keys.Nodup := by
  have hall : ["name", "type", "ref", "settings", "handler", "input", "output", "args", "return",
      "fingerprint"].Nodup := by decide
  refine List.Sublist.nodup ?_ hall
  simp only [members, Members.keys_append]
  exact (List.Sublist.refl ["name", "type", "ref"]).append (keys_sectionMembers "settings" _)
    |>.append (keys_sectionMembers "handler" _) |>.append (keys_sectionMembers "input" _)
    |>.append (keys_sectionMembers "output" _) |>.append (keys_sectionMembers "args" _)
    |>.append (keys_resultMembers _) |>.append (List.Sublist.refl ["fingerprint"])

/-- **The JSON value of a descriptor is readable.** -/
theorem readable_toJson (d : Descriptor) (depth : Nat) : Json.Readable (depth + 3) d.toJson := by
  have hmembers : ∀ m ∈ d.members, Json.Readable (depth + 2) m.2 := by
    simp only [members, List.forall_mem_append, List.forall_mem_singleton, and_assoc]
    exact ⟨.string _, .string _, .string _, readable_sectionMembers depth,
      readable_sectionMembers depth, readable_sectionMembers depth, readable_sectionMembers depth,
      readable_sectionMembers depth, readable_resultMembers _, .string _⟩
  rw [toJson_eq]
  exact .object d.nodup_keys_members hmembers

/-- **Every section is found under its own key.** -/
theorem get?_members (d : Descriptor) :
    d.members.get? "name" = some (.string d.name) ∧
    d.members.get? "type" = some (.string d.kind) ∧
    d.members.get? "ref" = some (.string d.reference) ∧
    d.members.get? "settings" = sectionValue d.settings ∧
    d.members.get? "handler" = sectionValue d.handler ∧
    d.members.get? "input" = sectionValue d.input ∧
    d.members.get? "output" = sectionValue d.output ∧
    d.members.get? "args" = sectionValue d.arguments ∧
    d.members.get? "return" = (d.result.map fun t => .string t.name) ∧
    d.members.get? "fingerprint" = some (.string d.fingerprint) := by
  -- not one `simp`: it would turn the appended singletons into one list before the look-up lemmas apply
  simp only [members, Members.get?_append, Members.get?_singleton, get?_sectionMembers,
    get?_resultMembers]
  simp

/-- **The JSON value of a descriptor determines it.** -/
theorem toJson_inj {d e : Descriptor} (h : d.toJson = e.toJson) : d = e := by
  rw [toJson_eq, toJson_eq] at h
  have hmembers : d.members = e.members := Json.object.inj h
  obtain ⟨dname, dkind, dreference, dsettings, dhandler, dinput, doutput, darguments, dresult,
    dfingerprint⟩ := d.get?_members
  obtain ⟨ename, ekind, ereference, esettings, ehandler, einput, eoutput, earguments, eresult,
    efingerprint⟩ := e.get?_members
  have string : ∀ {key s t}, d.members.get? key = some (.string s) →
      e.members.get? key = some (.string t) → s = t := by
    intro key s t hs ht
    rw [hmembers, ht] at hs
    exact (Json.string.inj (Option.some.inj hs)).symm
  have fields : ∀ {key fs gs}, d.members.get? key = sectionValue fs →
      e.members.get? key = sectionValue gs → fs = gs := by
    intro key fs gs hs ht
    rw [hmembers, ht] at hs
    exact (sectionValue_inj hs).symm
  have hresult : d.result = e.result := by
    rw [hmembers, eresult] at dresult
    refine (Option.map_inj_right ?_).mp dresult.symm
    exact fun t u htu => FieldType.name_inj (Json.string.inj htu)
  cases d
  cases e
  rw [Descriptor.mk.injEq]
  exact ⟨string dname ename, string dkind ekind, string dreference ereference,
    fields dsettings esettings, fields dhandler ehandler, fields dinput einput,
    fields doutput eoutput, fields darguments earguments, hresult,
    string dfingerprint efingerprint⟩

/-- **The canonical text of a descriptor determines all of it but the fingerprint.** -/
theorem canonicalText_inj {d e : Descriptor} (h : d.canonicalText = e.canonicalText) :
    { d with fingerprint := "" } = { e with fingerprint := "" } :=
  toJson_inj <| Json.Readable.eq_of_text (readable_toJson _ 0) (readable_toJson _ 0) h

end Descriptor

end ExtensionKit
