import ExtensionKit.Proofs.Record.Effect
import ExtensionKit.Proofs.Record.Runs

/-!
# The order of the fields

Names and identifiers are distinct, so the order in which fields are declared does not matter for what is
found under them. Two lists of the same fields make schemas or both do not, and the two record types take
the same objects, to records of the same content (`Record.SameContent`).

The order does show in two places. It is the order of the keys of a projection. And of an object that is
not taken it tells which field is blamed (`Contract.Blames`): the first of those that are refused, and every
one of these in some order (`Contract.mem_refused_iff`). Which fields are refused depends on the object
alone (`Contract.refused_perm`).
-/

namespace ExtensionKit

/-! ## Records of the same content -/

namespace Record

/-- The records hold the same values under the same names and identifiers. -/
structure SameContent (r r' : Record) : Prop where
  /-- the values under names -/
  values : ∀ name, r.get? name = r'.get? name
  /-- the values under identifiers -/
  identifiers : ∀ ident, r.getByIdent? ident = r'.getByIdent? ident
  /-- the members of the projections, in whatever order -/
  members : r.toMembers.Perm r'.toMembers

theorem sameContent_of_perm {r r' : Record} (perm : r.slots.Perm r'.slots) : r.SameContent r' := by
  refine ⟨?_, ?_, perm.map Slot.member⟩
  · intro name
    rw [get?, get?, find?_key_perm perm r.nodup_names]
  · intro ident
    rw [getByIdent?, getByIdent?, find?_key_perm perm r.nodup_idents]

/-- **Filling the same fields in another order** gives the same content. -/
theorem sameContent_refill_new {c c' : Contract} (perm : c.fields.Perm c'.fields) (raw : Members) :
    ((new c).refill raw).SameContent ((new c').refill raw) := by
  apply sameContent_of_perm
  change ((new c).slots.map (Slot.refill raw)).Perm ((new c').slots.map (Slot.refill raw))
  rw [slots_new, slots_new]
  exact (perm.map _).map _

end Record

namespace Contract

variable {c c' : Contract} {raw : Members}

/-! ## Refused fields -/

/-- The fields whose values from an object are refused. -/
def refused (c : Contract) (raw : Members) : List Field :=
  c.fields.filter fun f => !(f.incoming raw).isOk

/-- An object is refused with an error about a field, the first whose value is refused. -/
def Blames (c : Contract) (raw : Members) (f : Field) : Prop :=
  ∃ k e, c.ofMembers raw = .error (.field k f.name e) ∧ Record.FirstRefused c.fields raw k f e

theorem mem_refused {f : Field} :
    f ∈ c.refused raw ↔ f ∈ c.fields ∧ ∃ e, f.incoming raw = .error e := by
  rw [refused, List.mem_filter]
  cases f.incoming raw <;> simp [Except.isOk, Except.toBool]

/-- **Which fields are refused** does not depend on the order of the fields. -/
theorem refused_perm (perm : c.fields.Perm c'.fields) (raw : Members) :
    (c.refused raw).Perm (c'.refused raw) :=
  perm.filter _

/-- A contract that does not take an object blames a field. -/
theorem exists_blamed {e : RecordError} (h : c.ofMembers raw = .error e) : ∃ f, c.Blames raw f := by
  obtain ⟨k, f, source, rfl, first⟩ := firstRefused_of_ofMembers h
  exact ⟨f, k, source, h, first⟩

/-- **The refused fields are those that are blamed** in some order of the fields. -/
theorem mem_refused_iff {f : Field} :
    f ∈ c.refused raw ↔ ∃ c' : Contract, c'.fields.Perm c.fields ∧ c'.Blames raw f := by
  constructor
  · intro h
    obtain ⟨hf, e, he⟩ := mem_refused.mp h
    obtain ⟨before, after, hfields⟩ := List.append_of_mem hf
    have perm : (f :: (before ++ after)).Perm c.fields := hfields ▸ List.perm_middle.symm
    have distinct : ((f :: (before ++ after)).map Field.ident).Nodup :=
      (perm.map Field.ident).nodup_iff.mpr c.schema.distinct
    let c' : Contract := ⟨c.name, ⟨f :: (before ++ after), distinct⟩, c.stamp⟩
    have taken : ∀ g ∈ ([] : List Field), ∃ v, g.incoming raw = .ok v :=
      fun g hg => absurd hg List.not_mem_nil
    have hfields' : c'.fields = [] ++ f :: (before ++ after) := rfl
    have first : Record.FirstRefused ([] ++ f :: (before ++ after)) raw _ f e :=
      Record.firstRefused_of_split taken he
    exact ⟨c', perm, 0, e, ofMembers_of_error hfields' taken he, first⟩
  · rintro ⟨c', perm, k, e, -, first⟩
    exact mem_refused.mpr ⟨perm.subset first.mem, e, first.2.1⟩

/-! ## Taking an object -/

/-- **Two orders of the same fields** take the same objects. -/
theorem ofMembers_perm (perm : c.fields.Perm c'.fields) (raw : Members) :
    (∃ r r', c.ofMembers raw = .ok r ∧ c'.ofMembers raw = .ok r' ∧ r.SameContent r') ∨
      (∃ f, c.Blames raw f) ∧ ∃ f, c'.Blames raw f := by
  cases h : c.ofMembers raw with
  | ok r =>
    obtain ⟨taken, rfl⟩ := ofMembers_eq_ok_iff.mp h
    have taken' : ∀ f ∈ c'.fields, ∃ v, f.incoming raw = .ok v :=
      fun f hf => taken f (perm.symm.subset hf)
    exact .inl ⟨_, _, rfl, ofMembers_of_ok taken', Record.sameContent_refill_new perm raw⟩
  | error e =>
    refine .inr ⟨exists_blamed h, ?_⟩
    cases h' : c'.ofMembers raw with
    | ok r' =>
      obtain ⟨taken', -⟩ := ofMembers_eq_ok_iff.mp h'
      have htaken := ofMembers_of_ok fun f hf => taken' f (perm.subset hf)
      rw [h] at htaken
      cases htaken
    | error e' => exact exists_blamed h'

end Contract

/-! ## The main statement -/

namespace Schema

/-- **The order of the fields does not matter.** Of two orders of a list of fields both are schemas or none
is. Of two schemas, whatever object the record types are given:

* either both take it, and the records hold the same values under all names and identifiers; their
  projections have the same members, each with the keys in the order of its own schema;
* or none takes it, and each blames the first field of its own order whose value is refused. The fields
  whose values are refused are the same. -/
theorem order_irrelevant {fields fields' : List Field} (perm : fields.Perm fields') :
    ((∃ s, ofFields fields = .ok s) ↔ ∃ s, ofFields fields' = .ok s) ∧
    ∀ s s', ofFields fields = .ok s → ofFields fields' = .ok s' →
      ∀ (name name' : String) (stamp stamp' : Nat) (raw : Members),
        let c := Contract.compile name s stamp
        let c' := Contract.compile name' s' stamp'
        ((∃ r r', c.ofMembers raw = .ok r ∧ c'.ofMembers raw = .ok r' ∧ r.SameContent r' ∧
            r.toMembers.keys = fields.map Field.name ∧ r'.toMembers.keys = fields'.map Field.name) ∨
          (∃ f, c.Blames raw f) ∧ ∃ f, c'.Blames raw f) ∧
        (c.refused raw).Perm (c'.refused raw) := by
  constructor
  · rw [exists_ofFields_iff, exists_ofFields_iff]
    exact (perm.map Field.ident).nodup_iff
  · intro s s' hs hs' name name' stamp stamp' raw c c'
    obtain rfl := fields_of_ofFields hs
    obtain rfl := fields_of_ofFields hs'
    have hperm : c.fields.Perm c'.fields := perm
    refine ⟨?_, Contract.refused_perm hperm raw⟩
    rcases Contract.ofMembers_perm hperm raw with ⟨r, r', hr, hr', same⟩ | blamed
    · exact .inl ⟨r, r', hr, hr', same, Contract.keys_of_ofMembers hr, Contract.keys_of_ofMembers hr'⟩
    · exact .inr blamed

/-- Two orders of two fields of which an object has neither. Each contract blames its own first field. -/
theorem order_irrelevant_blamed :
    ∃ s s', ofFields [⟨"on", .boolean⟩, ⟨"count", .int⟩] = .ok s ∧
      ofFields [⟨"count", .int⟩, ⟨"on", .boolean⟩] = .ok s' ∧
      let c := Contract.compile "Entry" s
      let c' := Contract.compile "Entry" s'
      let raw : Members := [("on", .array []), ("count", .array [])]
      c.Blames raw ⟨"on", .boolean⟩ ∧ c'.Blames raw ⟨"count", .int⟩ ∧
        (c.refused raw).Perm (c'.refused raw) := by
  have accepted : ofFields [⟨"on", .boolean⟩, ⟨"count", .int⟩] =
      .ok ⟨[⟨"on", .boolean⟩, ⟨"count", .int⟩], by decide +kernel⟩ := rfl
  have accepted' : ofFields [⟨"count", .int⟩, ⟨"on", .boolean⟩] =
      .ok ⟨[⟨"count", .int⟩, ⟨"on", .boolean⟩], by decide +kernel⟩ := rfl
  have perm : [(⟨"on", .boolean⟩ : Field), ⟨"count", .int⟩].Perm [⟨"count", .int⟩, ⟨"on", .boolean⟩] :=
    .swap ..
  obtain ⟨-, hrefused⟩ := (order_irrelevant perm).2 _ _ accepted accepted' "Entry" "Entry" 0 0
    [("on", .array []), ("count", .array [])]
  refine ⟨_, _, accepted, accepted', ⟨0, _, rfl, rfl, rfl, ?_⟩, ⟨0, _, rfl, rfl, rfl, ?_⟩, hrefused⟩
  · intro j hj
    cases hj
  · intro j hj
    cases hj

end Schema

end ExtensionKit
