import ExtensionKit.Proofs.List.First
import ExtensionKit.Record.Schema

/-!
# Schemas and their fields

A schema is its list of fields: it keeps the fields that it is made of, and it is determined by them
(`Schema.ofFields_eq_ok_iff`). A list of fields with distinct identifiers is a schema. In any other there is
a first field with the identifier of an earlier one, and the error is about these two
(`Schema.ofFields_cases`).
-/

namespace ExtensionKit.Schema

theorem fields_inj {s t : Schema} (h : s.fields = t.fields) : s = t := by
  cases s
  cases t
  cases h
  rfl

/-- Distinct identifiers come from distinct names. -/
theorem nodup_names (s : Schema) : (s.fields.map Field.name).Nodup := by
  apply List.Nodup.of_map Identifier.exported
  rw [List.map_map]
  exact s.distinct

/-! ## The pass over the fields -/

/-- A field with a new identifier has a new name, and joins the earlier ones. -/
theorem firstClash?_cons_fresh {earlier : List Field} {f : Field}
    (fresh : ∀ e ∈ earlier, e.ident ≠ f.ident) (rest : List Field) :
    firstClash? earlier (f :: rest) = firstClash? (earlier ++ [f]) rest := by
  have hname : (earlier.any fun e => e.name == f.name) = false := by
    rw [List.any_eq_false]
    intro e he heq
    exact fresh e he (congrArg Identifier.exported (eq_of_beq heq))
  have hident : (earlier.find? fun e => e.ident == f.ident) = none := by
    rw [List.find?_eq_none]
    exact fun e he heq => fresh e he (eq_of_beq heq)
  rw [firstClash?, if_neg (Bool.eq_false_iff.mp hname), hident]

/-- No earlier field has the identifier of a later one if all are distinct. -/
theorem fresh_of_nodup {earlier rest : List Field} {f : Field}
    (distinct : ((earlier ++ f :: rest).map Field.ident).Nodup) : ∀ e ∈ earlier, e.ident ≠ f.ident := by
  intro e he heq
  rw [List.map_append, List.nodup_append] at distinct
  exact distinct.2.2 _ (List.mem_map_of_mem he) _ (List.mem_cons_self ..) heq

/-- Fields with distinct identifiers do not clash. -/
theorem firstClash?_eq_none {earlier rest : List Field}
    (distinct : ((earlier ++ rest).map Field.ident).Nodup) : firstClash? earlier rest = none := by
  induction rest generalizing earlier with
  | nil => rfl
  | cons f rest ih =>
    rw [firstClash?_cons_fresh (fresh_of_nodup distinct)]
    rw [List.append_cons] at distinct
    exact ih distinct

/-- The error about a field with the identifier of an earlier one. -/
def clash (j : Nat) (e f : Field) : SchemaError :=
  if e.name = f.name then .duplicate f.name j else .collision f.name e.name f.ident

/-- A field with the identifier of one among earlier fields, which are distinct. Its name is that of this
one or a new one. -/
theorem firstClash?_cons_repeat {earlier : List Field} {e f : Field}
    (distinct : (earlier.map Field.ident).Nodup) (he : e ∈ earlier) (hident : e.ident = f.ident)
    (rest : List Field) : firstClash? earlier (f :: rest) = some (clash earlier.length e f) := by
  have hname : (earlier.any fun d => d.name == f.name) = true ↔ e.name = f.name := by
    rw [List.any_eq_true]
    constructor
    · rintro ⟨d, hd, heq⟩
      have hsame : d.ident = e.ident :=
        (congrArg Identifier.exported (eq_of_beq heq)).trans hident.symm
      rw [← List.inj_on_of_nodup_map distinct hd he hsame]
      exact eq_of_beq heq
    · intro heq
      exact ⟨e, he, beq_iff_eq.mpr heq⟩
  have hfind : (earlier.find? fun d => d.ident == f.ident) = some e :=
    hident ▸ find?_key distinct he
  rw [firstClash?, hfind, clash]
  by_cases heq : e.name = f.name
  · rw [if_pos (hname.mpr heq), if_pos heq]
  · rw [if_neg (mt hname.mp heq), if_neg heq]

/-- The first clash is about the first field with the identifier of an earlier one. -/
theorem firstClash?_of_repeat {earlier before after : List Field} {e f : Field}
    (distinct : ((earlier ++ before).map Field.ident).Nodup) (he : e ∈ earlier ++ before)
    (hident : e.ident = f.ident) :
    firstClash? earlier (before ++ f :: after) = some (clash (earlier ++ before).length e f) := by
  induction before generalizing earlier with
  | nil =>
    rw [List.append_nil] at *
    exact firstClash?_cons_repeat distinct he hident after
  | cons g before ih =>
    rw [List.cons_append, firstClash?_cons_fresh (fresh_of_nodup distinct)]
    rw [List.append_cons earlier g before] at distinct he ⊢
    exact ih distinct he

/-- A clash is the error of the schema. -/
theorem ofFields_of_firstClash? {fields : List Field} {e : SchemaError}
    (h : firstClash? [] fields = some e) : ofFields fields = .error e := by
  rw [ofFields]
  split
  · next h' =>
    rw [h] at h'
    rw [Option.some.inj h']
  · next h' =>
    rw [h] at h'
    cases h'

/-- **A schema is made of its own fields and of no others.** -/
theorem ofFields_eq_ok_iff {fields : List Field} {s : Schema} :
    ofFields fields = .ok s ↔ s.fields = fields := by
  refine ⟨fields_of_ofFields, ?_⟩
  rintro rfl
  have hnone : firstClash? [] s.fields = none := firstClash?_eq_none s.distinct
  rw [ofFields]
  split
  · next h =>
    rw [hnone] at h
    cases h
  · rfl

/-! ## What is accepted -/

/-- A list of fields is a schema exactly if the identifiers are distinct. -/
theorem exists_ofFields_iff {fields : List Field} :
    (∃ s, ofFields fields = .ok s) ↔ (fields.map Field.ident).Nodup := by
  constructor
  · rintro ⟨s, hs⟩
    exact fields_of_ofFields hs ▸ s.distinct
  · intro distinct
    exact ⟨⟨fields, distinct⟩, ofFields_eq_ok_iff.mpr rfl⟩

/-- The field at position `j` is the first one with the identifier of an earlier field, which is the one
at position `i`. -/
structure FirstRepeat (fields : List Field) (i j : Nat) (e f : Field) : Prop where
  /-- the earlier field comes first -/
  lt : i < j
  /-- the earlier field -/
  earlier : fields[i]? = some e
  /-- the later field -/
  later : fields[j]? = some f
  /-- they have one identifier -/
  ident_eq : e.ident = f.ident
  /-- fields before the later one have distinct identifiers -/
  first : ∀ i' j', i' < j' → j' < j → ∀ e' f', fields[i']? = some e' → fields[j']? = some f' →
    e'.ident ≠ f'.ident
  /-- no other earlier field has the identifier -/
  sole : ∀ i' < j, ∀ e', fields[i']? = some e' → e'.ident = f.ident → i' = i

/-- Distinct keys are found at one position each. -/
theorem eq_of_getElem?_ident {before : List Field} (distinct : (before.map Field.ident).Nodup)
    {i j : Nat} {e f : Field} (he : before[i]? = some e) (hf : before[j]? = some f)
    (hident : e.ident = f.ident) : i = j := by
  have hi : i < (before.map Field.ident).length := by
    rw [List.length_map]
    exact (List.getElem?_eq_some_iff.mp he).1
  apply (List.getElem?_inj hi distinct).mp
  rw [List.getElem?_map, List.getElem?_map, he, hf]
  exact congrArg some hident

/-- A field that repeats one of distinct earlier ones is the first repeat. -/
theorem firstRepeat_of_split {before after : List Field} {e f : Field} {i : Nat}
    (distinct : (before.map Field.ident).Nodup) (he : before[i]? = some e)
    (hident : e.ident = f.ident) : FirstRepeat (before ++ f :: after) i before.length e f := by
  have hlt : i < before.length := (List.getElem?_eq_some_iff.mp he).1
  have hbefore : ∀ k < before.length, (before ++ f :: after)[k]? = before[k]? :=
    fun k hk => List.getElem?_append_left hk
  refine ⟨hlt, ?_, ?_, hident, ?_, ?_⟩
  · rw [hbefore i hlt, he]
  · rw [List.getElem?_append_right (Nat.le_refl _), Nat.sub_self]
    rfl
  · intro i' j' hij hj e' f' he' hf' heq
    rw [hbefore i' (Nat.lt_trans hij hj)] at he'
    rw [hbefore j' hj] at hf'
    exact Nat.ne_of_lt hij (eq_of_getElem?_ident distinct he' hf' heq)
  · intro i' hi' e' he' heq
    rw [hbefore i' hi'] at he'
    exact eq_of_getElem?_ident distinct he' he (heq.trans hident.symm)

/-- **What a schema is made of.** A list of fields is accepted exactly if the exported identifiers are
distinct, and then it is kept as it is. In any other list there is a first field with the identifier of an
earlier one, of which there is one only. The error is about these two: a duplicate, with the position, if
their names are equal, and else a collision, with both names and the identifier. -/
theorem ofFields_cases (fields : List Field) :
    ((∃ s, ofFields fields = .ok s) ↔ (fields.map Field.ident).Nodup) ∧
    ((∃ s, ofFields fields = .ok s ∧ s.fields = fields) ∨
      ∃ i j e f, FirstRepeat fields i j e f ∧
        ofFields fields = .error (if e.name = f.name then .duplicate f.name j
          else .collision f.name e.name f.ident)) := by
  have haccepted : (fields.map Field.ident).Nodup → ∃ s, ofFields fields = .ok s ∧ s.fields = fields :=
    fun distinct => ⟨⟨fields, distinct⟩, ofFields_eq_ok_iff.mpr rfl, rfl⟩
  constructor
  · constructor
    · rintro ⟨s, hs⟩
      exact fields_of_ofFields hs ▸ s.distinct
    · intro distinct
      obtain ⟨s, hs, -⟩ := haccepted distinct
      exact ⟨s, hs⟩
  · rcases nodup_or_first_repeat Field.ident fields with
      distinct | ⟨before, f, after, rfl, distinct, e, he, hident⟩
    · exact .inl (haccepted distinct)
    · obtain ⟨i, hi⟩ := List.getElem?_of_mem he
      refine .inr ⟨i, before.length, e, f, firstRepeat_of_split distinct hi hident, ?_⟩
      have hclash : firstClash? [] (before ++ f :: after) = some (clash before.length e f) :=
        firstClash?_of_repeat distinct he hident
      exact ofFields_of_firstClash? hclash

end ExtensionKit.Schema
