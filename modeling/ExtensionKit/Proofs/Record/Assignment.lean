import ExtensionKit.Proofs.Record.Runs

/-!
# The effect of an assignment

A field has two addresses, its name and its identifier, and both lead to the same slot
(`Record.getByIdent?_eq_get?`). An assignment by name changes what is found under the two addresses of its
field, and nothing that is found under another name or another identifier (`Record.get?_assign_of_ne`,
`Record.getByIdent?_assign_of_ne`); of the projection it changes one member (`Record.toMembers_assign`). An
assignment that fails does so for the first of three reasons that holds (`Record.Refusal`).
-/

namespace ExtensionKit

namespace Record

/-- Why an assignment is refused. The value is looked at only if the name is declared, and whether it is
finite only if it has the representation of the field. -/
inductive Refusal (r : Record) (name : String) (value : Value) : RecordError → Prop
  /-- no field has the name -/
  | unknownField (undeclared : ∀ f ∈ r.contract.fields, f.name ≠ name) :
    Refusal r name value (.unknownField r.contract.name name)
  /-- the field has another representation -/
  | typeMismatch {f : Field} (declared : f ∈ r.contract.fields) (name_eq : f.name = name)
    (held : value.representation ≠ f.representation) :
    Refusal r name value (.typeMismatch name f.representation value.representation)
  /-- the number is not finite -/
  | notFinite {f : Field} (declared : f ∈ r.contract.fields) (name_eq : f.name = name) {x : Binary64}
    (held : f.representation = .float64) (value_eq : value = .float64 x) (infinite : x.isFinite = false) :
    Refusal r name value (.notFinite name x)

/-! ## Addresses -/

/-- **A field is found under its identifier as it is under its name.** -/
theorem getByIdent?_eq_get? {r : Record} {f : Field} (hf : f ∈ r.contract.fields) :
    r.getByIdent? f.ident = r.get? f.name := by
  obtain ⟨s, hs, rfl⟩ := exists_slot hf
  rw [getByIdent?_slot hs, get?_slot hs]

/-- Fields of different names have different identifiers. -/
theorem ident_ne {c : Contract} {f g : Field} (hf : f ∈ c.fields) (hg : g ∈ c.fields)
    (h : g.name ≠ f.name) : g.ident ≠ f.ident := by
  intro hident
  exact h (congrArg Field.name (List.inj_on_of_nodup_map c.schema.distinct hg hf hident))

theorem field?_eq_some_iff {c : Contract} {name : String} {f : Field} :
    c.field? name = some f ↔ f ∈ c.fields ∧ f.name = name := by
  constructor
  · intro h
    exact of_find?_key h
  · rintro ⟨hf, rfl⟩
    exact Contract.field?_of_mem hf

theorem field?_eq_none_iff {c : Contract} {name : String} :
    c.field? name = none ↔ ∀ f ∈ c.fields, f.name ≠ name := by
  rw [Contract.field?, List.find?_eq_none]
  simp

/-! ## What an assignment changes -/

/-- A search by fields finds the slot that it found before the assignment. -/
theorem find?_assign (r : Record) (name : String) (value : Value) (p : Field → Bool) :
    ((r.assign name value).slots.find? fun s => p s.field) =
      (r.slots.find? fun s => p s.field).map
        fun s => if s.field.name = name then s.assign value else s := by
  have hsame : (fun s : Slot => p s.field) ∘ (fun s => if s.field.name = name then s.assign value else s) =
      fun s => p s.field := by
    funext s
    simp only [Function.comp]
    split <;> rfl
  rw [assign, List.find?_map, hsame]

/-- **What is found under another name** is what was found there. -/
theorem get?_assign_of_ne {r : Record} {name key : String} (value : Value) (h : key ≠ name) :
    (r.assign name value).get? key = r.get? key := by
  rw [get?, get?, find?_assign r name value fun f => f.name == key]
  cases hfind : r.slots.find? fun s => s.field.name == key with
  | none => rfl
  | some s =>
    obtain ⟨-, hkey⟩ := of_find?_key hfind
    rw [Option.map_some, if_neg (hkey.trans_ne h)]

/-- **What is found under another identifier** is what was found there. -/
theorem getByIdent?_assign_of_ne {r : Record} {name ident : String} (value : Value)
    (h : ident ≠ Identifier.exported name) :
    (r.assign name value).getByIdent? ident = r.getByIdent? ident := by
  rw [getByIdent?, getByIdent?, find?_assign r name value fun f => f.ident == ident]
  cases hfind : r.slots.find? fun s => s.field.ident == ident with
  | none => rfl
  | some s =>
    obtain ⟨-, hident⟩ := of_find?_key hfind
    have hname : s.field.name ≠ name := by
      rintro rfl
      exact h hident.symm
    rw [Option.map_some, if_neg hname]

/-- **The assigned value is found under the name.** -/
theorem get?_assign_self {r : Record} {f : Field} (hf : f ∈ r.contract.fields) (value : Value) :
    (r.assign f.name value).get? f.name = some value := by
  obtain ⟨s, hs, rfl⟩ := exists_slot hf
  rw [get?, find?_assign r s.field.name value fun f => f.name == s.field.name, find?_slot hs,
    Option.map_some, if_pos rfl]
  rfl

/-- **The projection has one member changed**, the one of the name. -/
theorem toMembers_assign (r : Record) (name : String) (value : Value) :
    (r.assign name value).toMembers =
      r.toMembers.map fun m => if m.1 = name then (name, value.toJson) else m := by
  rw [toMembers, toMembers, assign, List.map_map, List.map_map]
  apply List.map_congr_left
  intro s _
  simp only [Function.comp]
  by_cases h : s.field.name = name
  · rw [if_pos h, if_pos (show s.member.1 = name from h), ← h]
    rfl
  · rw [if_neg h, if_neg (show s.member.1 ≠ name from h)]

/-! ## When an assignment fails -/

/-- A number that is not finite. -/
theorem notFinite?_eq_some_iff {v : Value} {x : Binary64} :
    notFinite? v = some x ↔ v = .float64 x ∧ x.isFinite = false := by
  cases v with
  | float64 y =>
    rw [notFinite?]
    split
    · next h =>
      constructor
      · intro heq
        cases heq
      · rintro ⟨heq, hx⟩
        cases heq
        cases h.symm.trans hx
    · next h =>
      constructor
      · intro heq
        cases heq
        exact ⟨rfl, Bool.eq_false_iff.mpr h⟩
      · rintro ⟨heq, -⟩
        cases heq
        rfl
  | _ => simp [notFinite?]

/-- **An assignment fails for the first reason that holds.** -/
theorem set_eq_error_iff {r : Record} {name : String} {value : Value} {e : RecordError} :
    r.set name value = .error e ↔ Refusal r name value e := by
  rw [set]
  constructor
  · intro h
    split at h
    · next hnone =>
      obtain rfl := Except.error.inj h
      exact .unknownField (field?_eq_none_iff.mp hnone)
    · next f hsome =>
      obtain ⟨hf, hname⟩ := field?_eq_some_iff.mp hsome
      split at h
      · next held =>
        obtain rfl := Except.error.inj h
        exact .typeMismatch hf hname held
      · next held =>
        split at h
        · next x hx =>
          obtain rfl := Except.error.inj h
          obtain ⟨rfl, infinite⟩ := notFinite?_eq_some_iff.mp hx
          exact .notFinite hf hname (not_not.mp held).symm rfl infinite
        · cases h
  · intro h
    cases h with
    | unknownField undeclared => rw [field?_eq_none_iff.mpr undeclared]
    | typeMismatch declared name_eq held =>
      rw [field?_eq_some_iff.mpr ⟨declared, name_eq⟩]
      simp only [if_pos held]
    | notFinite declared name_eq held value_eq infinite =>
      rw [field?_eq_some_iff.mpr ⟨declared, name_eq⟩]
      have hsome := notFinite?_eq_some_iff.mpr ⟨value_eq, infinite⟩
      subst value_eq
      simp only [held, Value.representation, ne_eq, not_true, if_false, hsome]

/-! ## The main statement -/

/-- What an assignment leaves if it succeeds. -/
structure Assigned (r r' : Record) (name : String) (value : Value) : Prop where
  /-- the record keeps its type -/
  contract : r'.contract = r.contract
  /-- the field of the name has the value, under both its addresses -/
  assigned : ∀ f ∈ r.contract.fields, f.name = name →
    r'.get? f.name = some value ∧ r'.getByIdent? f.ident = some value
  /-- every other field has what it had, under both its addresses -/
  others : ∀ g ∈ r.contract.fields, g.name ≠ name →
    r'.get? g.name = r.get? g.name ∧ r'.getByIdent? g.ident = r.getByIdent? g.ident
  /-- the projection differs at the name at most -/
  members : r'.toMembers = r.toMembers.map fun m => if m.1 = name then (name, value.toJson) else m

/-- Assigning a value under a name of the contract changes one key of the projection. -/
theorem assigned_assign {r : Record} {f : Field} (hf : f ∈ r.contract.fields) (value : Value) :
    Assigned r (r.assign f.name value) f.name value := by
  refine ⟨rfl, ?_, ?_, toMembers_assign r f.name value⟩
  · intro g hg hname
    rw [getByIdent?_eq_get? (r := r.assign f.name value) hg, hname]
    exact ⟨get?_assign_self hf value, get?_assign_self hf value⟩
  · intro g hg hname
    exact ⟨get?_assign_of_ne value hname, getByIdent?_assign_of_ne value (ident_ne hf hg hname)⟩

/-- **The effect of an assignment.** It succeeds exactly if a field has the name and the value fits it, which
means that it is held in the field's representation and is no infinity and not `nan`. Then the value is found
under the name and the identifier of the field, all other fields have what they had under both, and the
projection differs in the one member. If it fails, it is for the first of three reasons, and the record is
left as it was. And of every field, whatever was assigned before, name and identifier find the same. -/
theorem set_addressing (r : Record) (name : String) (value : Value) :
    ((∃ r', r.set name value = .ok r') ↔
      ∃ f ∈ r.contract.fields, f.name = name ∧ value.Fits f.representation) ∧
    (∀ r', r.set name value = .ok r' →
      r.after (.set name value) = r' ∧ Assigned r r' name value) ∧
    (∀ e, r.set name value = .error e →
      r.after (.set name value) = r ∧ Refusal r name value e) ∧
    ∀ f ∈ r.contract.fields, r.getByIdent? f.ident = r.get? f.name := by
  refine ⟨⟨?_, ?_⟩, ?_, ?_, fun f hf => getByIdent?_eq_get? hf⟩
  · rintro ⟨r', h⟩
    obtain ⟨f, hfind, fits, -⟩ := set_eq_ok_iff.mp h
    obtain ⟨hf, hname⟩ := field?_eq_some_iff.mp hfind
    exact ⟨f, hf, hname, fits⟩
  · rintro ⟨f, hf, hname, fits⟩
    exact ⟨_, set_eq_ok_iff.mpr ⟨f, field?_eq_some_iff.mpr ⟨hf, hname⟩, fits, rfl⟩⟩
  · intro r' h
    obtain ⟨f, hfind, -, rfl⟩ := set_eq_ok_iff.mp h
    obtain ⟨hf, rfl⟩ := field?_eq_some_iff.mp hfind
    exact ⟨by rw [after, h], assigned_assign hf value⟩
  · intro e h
    exact ⟨by rw [after, h], set_eq_error_iff.mp h⟩

/-- An integer is found under the identifier of its field after `nan` was refused for another field. -/
theorem set_addressing_afterRefusal :
    ∃ schema, Schema.ofFields [⟨"ratio", .number⟩, ⟨"item-count", .int⟩] = .ok schema ∧
      let r := (new (.compile "Reading" schema)).after (.set "ratio" (.float64 .nan))
      Refusal (new (.compile "Reading" schema)) "ratio" (.float64 .nan) (.notFinite "ratio" .nan) ∧
        ∃ r', r.set "item-count" (.int64 3) = .ok r' ∧ r'.getByIdent? "Item_count" = some (.int64 3) ∧
          r'.toMembers = [("ratio", Value.toJson (.float64 .zero)), ("item-count", .ofInt64 3)] := by
  have accepted : Schema.ofFields [⟨"ratio", .number⟩, ⟨"item-count", .int⟩] =
      .ok ⟨[⟨"ratio", .number⟩, ⟨"item-count", .int⟩], by decide +kernel⟩ := rfl
  refine ⟨_, accepted, ?_⟩
  generalize hr : new (.compile "Reading" _) = r₀
  have refused : r₀.set "ratio" (.float64 .nan) = .error (.notFinite "ratio" .nan) := hr ▸ rfl
  obtain ⟨unchanged, refusal⟩ := (set_addressing r₀ "ratio" (.float64 .nan)).2.2.1 _ refused
  have taken : r₀.set "item-count" (.int64 3) = .ok (r₀.assign "item-count" (.int64 3)) := hr ▸ rfl
  obtain ⟨-, effect⟩ := (set_addressing r₀ "item-count" (.int64 3)).2.1 _ taken
  intro r
  rw [show r = r₀ from unchanged]
  have declared : ⟨"item-count", .int⟩ ∈ r₀.contract.fields := by
    subst hr
    exact List.mem_cons_of_mem _ (List.mem_cons_self ..)
  refine ⟨refusal, _, taken, ?_, ?_⟩
  · exact (effect.assigned _ declared rfl).2
  · rw [effect.members]
    subst hr
    rfl

end Record

end ExtensionKit
