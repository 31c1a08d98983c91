import ExtensionKit.Proofs.Declaration.Descriptor
import ExtensionKit.Proofs.Record.Schema

/-!
# Declarations read back

A schema or a descriptor that is written and read again is the same as before, and nothing is reported on
the way: types are written under names that are known.

An object is read member by member, so the argument goes the same way. `Shape.Puts` says what some
members make of a structure, whatever members come after them; a section that is left out makes nothing of
it, and is the empty section that the structure starts with.
-/

namespace ExtensionKit

namespace Declared

theorem pure_bind (a : α) (f : α → Declared β) : (pure a >>= f) = f a := rfl

/-- A result is read in two steps if there is one of each. -/
theorem value_bind_eq_ok_iff {x : Declared α} {f : α → Declared β} {b : β} :
    (x >>= f).run.value = .ok b ↔ ∃ a, x.run.value = .ok a ∧ (f a).run.value = .ok b := by
  change (ExceptT.bindCont f x.run.value).value = .ok b ↔ _
  cases hx : x.run.value with
  | error e =>
    refine ⟨fun h => ?_, ?_⟩
    · cases h
    · rintro ⟨a, ha, -⟩
      cases ha
  | ok a =>
    refine ⟨fun h => ⟨a, rfl, h⟩, ?_⟩
    rintro ⟨a', ha, h⟩
    obtain rfl := Except.ok.inj ha
    exact h

/-- **The name of a type is read as that type.** -/
theorem type_name (t : FieldType) : type (.string t.name) = pure t := by
  cases t <;> rfl

/-- A list is read back if every item is. -/
theorem items_map {item : Json → Declared α} {write : α → Json}
    (h : ∀ a, item (write a) = pure a) (as : List α) : items item (as.map write) = pure as := by
  induction as with
  | nil => rfl
  | cons a as ih => rw [List.map_cons, items, h, pure_bind, ih, pure_bind]

end Declared

/-! ## Objects -/

namespace Shape

variable {shape : Shape α} {ms ns : Members} {a b c : α}

/-- Some members make one structure of another, whatever members come after them. -/
def Puts (shape : Shape α) (ms : Members) (a b : α) : Prop :=
  ∀ rest, shape.putMembers (ms ++ rest) a = shape.putMembers rest b

theorem Puts.nil (a : α) : shape.Puts [] a a := fun _ => rfl

theorem Puts.append (h : shape.Puts ms a b) (h' : shape.Puts ns b c) : shape.Puts (ms ++ ns) a c := by
  intro rest
  rw [List.append_assoc, h, h']

/-- A member is put by the entry of its key. -/
theorem Puts.singleton {key : String} {value : Json} {entry : Entry α}
    (found : (shape.entries.find? fun e => e.key == key) = some entry)
    (put : entry.put value a = pure b) : shape.Puts [(key, value)] a b := by
  intro rest
  rw [List.singleton_append, putMembers, found]
  simp only [put, Declared.pure_bind]

/-- **An object is read as what its members make of the start**, if no required key is missing. -/
theorem read_object (surplus : Surplus) (h : shape.Puts ms shape.start a)
    (complete : (shape.entries.filter Entry.required).map Entry.key ⊆ ms.keys) :
    shape.read surplus (.object ms) = pure a := by
  have hput : shape.putMembers ms shape.start = pure a := by
    have hall := h []
    rwa [List.append_nil, putMembers] at hall
  have hnone : (shape.entries.find? fun e => e.required && (ms.get? e.key).isNone) = none := by
    rw [List.find?_eq_none]
    intro e he hmissing
    obtain ⟨hrequired, hisNone⟩ := Bool.and_eq_true_iff.mp hmissing
    have hkey : e.key ∈ ms.keys := by
      exact complete (List.mem_map_of_mem (List.mem_filter.mpr ⟨he, hrequired⟩))
    rw [← Members.isSome_get?, Option.isSome_iff_ne_none] at hkey
    exact hkey (Option.isNone_iff_eq_none.mp hisNone)
  rw [read, hput, Declared.pure_bind, hnone]

end Shape

/-! ## Fields -/

theorem FieldDescriptor.read_toJson (f : FieldDescriptor) : read f.toJson = pure f := by
  obtain ⟨name, type, required⟩ := f
  have hname : shape.Puts [("name", .string name)] ⟨"", .any, false⟩ ⟨name, .any, false⟩ :=
    .singleton rfl rfl
  have htype : shape.Puts [("type", .string type.name)] ⟨name, .any, false⟩ ⟨name, type, false⟩ :=
    .singleton rfl (by simp only [Declared.type_name]; rfl)
  have hrequired : shape.Puts [("required", .bool required)] ⟨name, type, false⟩
      ⟨name, type, required⟩ := .singleton rfl rfl
  exact Shape.read_object .refused ((hname.append htype).append hrequired) (List.Subset.refl _)

/-- A field is read back, whatever is done with surplus members. -/
theorem Field.read_toJson (surplus : Surplus) (f : Field) :
    read .schemaField surplus (f.toJson .schemaField) = pure f := by
  obtain ⟨name, type⟩ := f
  have hname : (shape .schemaField).Puts [("fieldName", .string name)] ⟨"", .any⟩ ⟨name, .any⟩ :=
    .singleton rfl rfl
  have htype : (shape .schemaField).Puts [("fieldType", .string type.name)] ⟨name, .any⟩
      ⟨name, type⟩ := .singleton rfl (by simp only [Declared.type_name]; rfl)
  have hkeys : ["fieldName"] ⊆ ["fieldName", "fieldType"] := by decide
  exact Shape.read_object surplus (hname.append htype) hkeys

theorem Field.readable_toJson (f : Field) (depth : Nat) :
    Json.Readable (depth + 1) (f.toJson .schemaField) := by
  have nodup : ["fieldName", "fieldType"].Nodup := by decide
  refine .object nodup fun m hm => ?_
  simp only [List.mem_cons, List.not_mem_nil, or_false] at hm
  rcases hm with rfl | rfl
  · exact .string _
  · exact .string _

/-! ## Schemas -/

namespace Schema

theorem readable_toJson (s : Schema) (depth : Nat) : Json.Readable (depth + 2) s.toJson := by
  refine .array fun j hj => ?_
  obtain ⟨f, -, rfl⟩ := List.mem_map.mp hj
  exact f.readable_toJson depth

/-- **A written schema is read back.** -/
theorem read_toJson (surplus : Surplus) (s : Schema) : read surplus s.toJson = pure s := by
  have hfields : Declared.list (Field.read .schemaField surplus) s.toJson = pure s.fields :=
    Declared.items_map (Field.read_toJson surplus) s.fields
  rw [read, hfields, Declared.pure_bind, ofFields_eq_ok_iff.mpr rfl]

/-- **What is read as a schema** is the list of its fields. -/
theorem read_eq_ok_iff {surplus : Surplus} {j : Json} {s : Schema} :
    (read surplus j).run.value = .ok s ↔
      (Declared.list (Field.read .schemaField surplus) j).run.value = .ok s.fields := by
  rw [read, Declared.value_bind_eq_ok_iff]
  constructor
  · rintro ⟨fields, hfields, h⟩
    cases hschema : ofFields fields with
    | error e =>
      rw [hschema] at h
      cases h
    | ok t =>
      rw [hschema] at h
      obtain rfl := Except.ok.inj h
      rwa [fields_of_ofFields hschema]
  · intro h
    refine ⟨s.fields, h, ?_⟩
    rw [ofFields_eq_ok_iff.mpr rfl]
    rfl

end Schema

/-! ## Descriptors -/

namespace Descriptor

/-- A section is read into the place where there is an empty one. -/
theorem puts_section (key : String) {entry : Shape.Entry Descriptor}
    (place : List FieldDescriptor → Descriptor)
    (found : (shape.entries.find? fun e => e.key == key) = some entry)
    (put : ∀ j, entry.put j (place []) = do return place (← readSection j))
    (fields : List FieldDescriptor) :
    shape.Puts (sectionMembers key fields) (place []) (place fields) := by
  cases fields with
  | nil => exact .nil _
  | cons f fields =>
    refine .singleton found ?_
    have hread : readSection (.array ((f :: fields).map FieldDescriptor.toJson)) =
        pure (f :: fields) := Declared.items_map FieldDescriptor.read_toJson (f :: fields)
    rw [put, hread, Declared.pure_bind]

/-- The result of a function is put into its place. -/
theorem puts_result {entry : Shape.Entry Descriptor} (place : Option FieldType → Descriptor)
    (found : (shape.entries.find? fun e => e.key == "return") = some entry)
    (put : ∀ j, entry.put j (place none) = do return place (← readResult j))
    (result : Option FieldType) :
    shape.Puts (resultMembers result) (place none) (place result) := by
  cases result with
  | none => exact .nil _
  | some t =>
    refine .singleton found ?_
    have hread : readResult (.string t.name) = pure (some t) := by
      rw [readResult, Declared.type_name, Declared.pure_bind]
      intro h
      cases h
    rw [put, hread, Declared.pure_bind]

/-- **A written descriptor is read back.** -/
theorem read_toJson (d : Descriptor) : read d.toJson = pure d := by
  have hmissing : ["name", "type", "ref"] ⊆ d.members.keys := by
    obtain ⟨hname, htype, hreference, -⟩ := d.get?_members
    intro key hkey
    rw [← Members.isSome_get?]
    simp only [List.mem_cons, List.not_mem_nil, or_false] at hkey
    rcases hkey with rfl | rfl | rfl
    · rw [hname, Option.isSome_some]
    · rw [htype, Option.isSome_some]
    · rw [hreference, Option.isSome_some]
  refine Shape.read_object .refused ?_ hmissing
  obtain ⟨name, kind, reference, settings, handler, input, output, arguments, result, fingerprint⟩ := d
  have hname : shape.Puts [("name", .string name)] shape.start
      ⟨name, "", "", [], [], [], [], [], none, ""⟩ := .singleton rfl rfl
  have hkind : shape.Puts [("type", .string kind)] ⟨name, "", "", [], [], [], [], [], none, ""⟩
      ⟨name, kind, "", [], [], [], [], [], none, ""⟩ := .singleton rfl rfl
  have hreference : shape.Puts [("ref", .string reference)]
      ⟨name, kind, "", [], [], [], [], [], none, ""⟩
      ⟨name, kind, reference, [], [], [], [], [], none, ""⟩ := .singleton rfl rfl
  have hsettings := puts_section "settings" (fun fs =>
    ⟨name, kind, reference, fs, [], [], [], [], none, ""⟩) rfl (fun _ => rfl) settings
  have hhandler := puts_section "handler" (fun fs =>
    ⟨name, kind, reference, settings, fs, [], [], [], none, ""⟩) rfl (fun _ => rfl) handler
  have hinput := puts_section "input" (fun fs =>
    ⟨name, kind, reference, settings, handler, fs, [], [], none, ""⟩) rfl (fun _ => rfl) input
  have houtput := puts_section "output" (fun fs =>
    ⟨name, kind, reference, settings, handler, input, fs, [], none, ""⟩) rfl (fun _ => rfl) output
  have harguments := puts_section "args" (fun fs =>
    ⟨name, kind, reference, settings, handler, input, output, fs, none, ""⟩) rfl (fun _ => rfl)
    arguments
  have hresult := puts_result (fun r =>
    ⟨name, kind, reference, settings, handler, input, output, arguments, r, ""⟩) rfl (fun _ => rfl)
    result
  have hfingerprint : shape.Puts [("fingerprint", .string fingerprint)]
      ⟨name, kind, reference, settings, handler, input, output, arguments, result, ""⟩
      ⟨name, kind, reference, settings, handler, input, output, arguments, result, fingerprint⟩ :=
    .singleton rfl rfl
  exact (hname.append hkind).append hreference |>.append hsettings |>.append hhandler
    |>.append hinput |>.append houtput |>.append harguments |>.append hresult
    |>.append hfingerprint

/-- A fingerprint is no part of what it covers, so computing it again gives the same. -/
theorem computeFingerprint_fingerprinted (d : Descriptor) :
    d.fingerprinted.computeFingerprint = d.fingerprinted.fingerprint := rfl

end Descriptor

/-! ## Text and back -/

/-- Something is read back from how it is written: the text of its value as the value, and the value as
what it was, with nothing reported. -/
structure ReadsBack (readValue : Json → Declared α) (j : Json) (a : α) : Prop where
  /-- the text is read as the value -/
  text : Json.read j.text.toList = .ok j
  /-- the value is read as what it stands for -/
  value : readValue j = pure a

/-- A descriptor whose fingerprint is confirmed by whoever reads its text. -/
def Descriptor.Confirmed (d : Descriptor) : Prop :=
  ∃ e, ReadsBack read d.toJson e ∧ e.fingerprint = d.fingerprint ∧ e.computeFingerprint = d.fingerprint

theorem Schema.readsBack (surplus : Surplus) (s : Schema) : ReadsBack (read surplus) s.toJson s where
  text := (s.readable_toJson 125).read_text
  value := s.read_toJson surplus

theorem Descriptor.readsBack (d : Descriptor) : ReadsBack read d.toJson d where
  text := (d.readable_toJson 124).read_text
  value := d.read_toJson

theorem Descriptor.confirmed_fingerprinted (d : Descriptor) : d.fingerprinted.Confirmed :=
  ⟨d.fingerprinted, d.fingerprinted.readsBack, rfl, d.computeFingerprint_fingerprinted⟩

/-- **Schemas and descriptors survive their text.**

* Every schema is read back from its text, whether or not surplus elements are refused.
* What is read as a schema is the list of fields that the value holds, and there is a schema exactly if
  their names are distinct and their identifiers are.
* Every descriptor is read back from its text, whichever of its sections are empty and whatever its
  fingerprint says.
* The fingerprint of a descriptor of an activity, a trigger or a function is the one that is computed of
  what is read back. -/
theorem readsBack_declarations :
    (∀ (surplus : Surplus) (s : Schema), ReadsBack (Schema.read surplus) s.toJson s) ∧
    (∀ (surplus : Surplus) (j : Json) (fields : List Field),
      (∃ s, (Schema.read surplus j).run.value = .ok s ∧ s.fields = fields) ↔
        (Declared.list (Field.read .schemaField surplus) j).run.value = .ok fields ∧
          (fields.map Field.name).Nodup ∧ (fields.map Field.ident).Nodup) ∧
    (∀ d : Descriptor, ReadsBack Descriptor.read d.toJson d) ∧
    ∀ reference : Reference,
      (∀ a : ActivityDefinition, (Descriptor.ofActivity reference a).Confirmed) ∧
      (∀ t : TriggerDefinition, (Descriptor.ofTrigger reference t).Confirmed) ∧
      ∀ (f : FunctionDefinition) (s : Signature), (Descriptor.ofFunction reference f s).Confirmed := by
  refine ⟨Schema.readsBack, fun surplus j fields => ⟨?_, ?_⟩, Descriptor.readsBack, fun reference =>
    ⟨fun _ => Descriptor.confirmed_fingerprinted _, fun _ => Descriptor.confirmed_fingerprinted _,
      fun _ _ => Descriptor.confirmed_fingerprinted _⟩⟩
  · rintro ⟨s, hread, rfl⟩
    exact ⟨Schema.read_eq_ok_iff.mp hread, s.nodup_names, s.distinct⟩
  · rintro ⟨hfields, -, distinct⟩
    exact ⟨⟨fields, distinct⟩, Schema.read_eq_ok_iff.mpr hfields, rfl⟩

end ExtensionKit
