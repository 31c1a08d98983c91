import ExtensionKit.Proofs.Record.Effect
import ExtensionKit.Proofs.Text.Blank

/-!
# Absence

There are several ways for an object to have nothing for a field: no member of the name, null, and an empty
text, or a blank one if the field does not hold texts (`FieldType.Absent`). All of them mean the zero of the
field, which is also what an unset field shows (`Field.incoming_of_absent`). So an object that has nothing for
any field describes a record that looks like a new one, and in no object does it matter in which of these ways
it has nothing for a field (`Contract.absent_is_zero`).
-/

namespace ExtensionKit

/-- What an object has under the name of a field of a declared type says nothing. -/
inductive FieldType.Absent : FieldType → Option Json → Prop
  /-- there is no member of the name -/
  | missing {t : FieldType} : Absent t none
  /-- its value is null -/
  | null {t : FieldType} : Absent t (some .null)
  /-- its value is the empty text -/
  | empty {t : FieldType} : Absent t (some (.string ""))
  /-- its value is white space, and the field does not hold texts -/
  | blank {t : FieldType} {s : String} (notText : t ≠ .string ∧ t ≠ .datetime)
    (blank : s.toList.all Text.isBlank = true) : Absent t (some (.string s))

/-- No member and null are absent for every type. -/
theorem FieldType.Absent.of_none_or_null {t : FieldType} {found : Option Json}
    (h : found = none ∨ found = some .null) : t.Absent found := by
  rcases h with rfl | rfl
  · exact .missing
  · exact .null

/-! ## Zeros -/

/-- Every field coerces null to its zero. -/
theorem FieldType.apply_null (t : FieldType) :
    t.fieldCoercion.apply .null = .ok t.fieldCoercion.target.zero := by
  cases t <;> rfl

/-- Every field that does not hold texts coerces white space to its zero. -/
theorem FieldType.apply_blank {t : FieldType} {s : String} (notText : t ≠ .string ∧ t ≠ .datetime)
    (blank : Text.trim s.toList = []) :
    t.fieldCoercion.apply (.string s) = .ok t.fieldCoercion.target.zero := by
  have hfloat : (Json.string s).toFloat64 = .ok .zero := by
    rw [Json.toFloat64, blank]
  have hint : (Json.string s).toInt64 = .ok 0 := by
    rw [Json.toInt64, blank]
  have hbool : (Json.string s).toBool = .ok false := by
    rw [Json.toBool, Text.trimmed, blank]
    rfl
  have hobject : (Json.string s).toObject = .ok [] := by
    rw [Json.toObject, blank]
  cases t with
  | string => exact absurd rfl notText.1
  | datetime => exact absurd rfl notText.2
  | number => exact congrArg (Except.map Value.float64) hfloat
  | int => exact congrArg (Except.map Value.int64) hint
  | boolean => exact congrArg (Except.map Value.bool) hbool
  | object => exact congrArg (Except.map Value.object) hobject
  | any => exact congrArg (Except.map Value.object) hobject

/-- **Absence means zero.** -/
theorem Field.incoming_of_absent {raw : Members} {f : Field} (h : f.type.Absent (raw.get? f.name)) :
    f.incoming raw = .ok f.zero := by
  rw [incoming, coercion, zero, representation, coercion]
  generalize f.type = t at h ⊢
  cases hfound : raw.get? f.name with
  | none => exact t.apply_null
  | some j =>
    rw [hfound] at h
    rw [Option.getD_some]
    cases h with
    | null => exact t.apply_null
    | empty => cases t <;> rfl
    | blank notText blank =>
      exact FieldType.apply_blank notText (Text.trim_eq_nil_iff.mpr (List.all_eq_true.mp blank))

/-! ## Records -/

/-- A slot that is filled with its zero looks as if it were unset. -/
theorem Slot.member_refill_of_absent {raw : Members} {s : Slot} (unset : s.value = none)
    (h : s.field.type.Absent (raw.get? s.field.name)) : (s.refill raw).member = s.member := by
  rw [refill_eq (Field.incoming_of_absent h), member, member, shown, shown, unset]
  rfl

namespace Contract

variable {c : Contract} {raw raw' : Members}

/-- An object that has nothing for any field is taken, and every field becomes zero. -/
theorem ofMembers_of_absent (h : ∀ f ∈ c.fields, f.type.Absent (raw.get? f.name)) :
    c.ofMembers raw = .ok ((Record.new c).refill raw) ∧
      (∀ f ∈ c.fields, ((Record.new c).refill raw).get? f.name = some f.zero) ∧
      ((Record.new c).refill raw).toMembers = (Record.new c).toMembers := by
  have htaken : c.ofMembers raw = .ok ((Record.new c).refill raw) :=
    ofMembers_of_ok fun f hf => ⟨f.zero, Field.incoming_of_absent (h f hf)⟩
  refine ⟨htaken, fun f hf => ?_, ?_⟩
  · obtain ⟨v, hv, hget⟩ := get?_of_ofMembers htaken hf
    rw [Field.incoming_of_absent (h f hf)] at hv
    rw [hget, Except.ok.inj hv]
  · rw [Record.toMembers, Record.toMembers]
    change ((Record.new c).slots.map (Slot.refill raw)).map Slot.member = _
    rw [List.map_map, Record.slots_new, List.map_map, List.map_map]
    apply List.map_congr_left
    intro f hf
    exact Slot.member_refill_of_absent rfl (h f hf)

/-- **The way of absence does not matter.** Of two objects, whatever else they hold, let each field be either
found alike or in neither. Then they are taken alike or refused alike. -/
theorem ofMembers_congr_of_absent (h : ∀ f ∈ c.fields, raw'.get? f.name = raw.get? f.name ∨
      f.type.Absent (raw.get? f.name) ∧ f.type.Absent (raw'.get? f.name)) :
    c.ofMembers raw' = c.ofMembers raw := by
  have hsame : ∀ f ∈ c.fields, f.incoming raw' = f.incoming raw := by
    intro f hf
    rcases h f hf with heq | ⟨absent, absent'⟩
    · rw [Field.incoming, Field.incoming, heq]
    · rw [Field.incoming_of_absent absent, Field.incoming_of_absent absent']
  rw [ofMembers, ofMembers, Record.fill_congr_incoming (r := Record.new c) hsame]

/-! ## The main statement -/

/-- **Absence is zero.** An object that has nothing for any field, in whatever way, describes a record in which
every field is set to its zero, and which looks like a new one. If an object has nothing for one field, it
can have it in any other of these ways without a change: it is still taken as the same record, or refused
with the same error about the same field. -/
theorem absent_is_zero (c : Contract) :
    (∀ raw : Members, (∀ f ∈ c.fields, f.type.Absent (raw.get? f.name)) →
      ∃ r, c.ofMembers raw = .ok r ∧ (∀ f ∈ c.fields, r.get? f.name = some f.representation.zero) ∧
        r.toMembers = (Record.new c).toMembers) ∧
    ∀ raw raw' : Members, ∀ f ∈ c.fields, f.type.Absent (raw.get? f.name) →
      f.type.Absent (raw'.get? f.name) →
      (∀ name, name ≠ f.name → raw'.get? name = raw.get? name) →
      c.ofMembers raw' = c.ofMembers raw := by
  constructor
  · intro raw h
    exact ⟨_, ofMembers_of_absent h⟩
  · intro raw raw' f hf absent absent' others
    refine ofMembers_congr_of_absent fun g hg => ?_
    by_cases hname : g.name = f.name
    · rw [List.inj_on_of_nodup_map c.nodup_names hg hf hname]
      exact .inr ⟨absent, absent'⟩
    · exact .inl (others g.name hname)

/-- Fields of all types with all forms of absence; and an object that is refused for another field, whether
it has null or an ideographic space for the first. -/
theorem absent_is_zero_everyForm :
    ∃ schema, Schema.ofFields [⟨"on", .boolean⟩, ⟨"count", .int⟩, ⟨"rate", .number⟩, ⟨"note", .string⟩,
        ⟨"due", .datetime⟩, ⟨"extra", .object⟩, ⟨"other", .any⟩] = .ok schema ∧
      let c := compile "Entry" schema
      (∃ r, c.ofMembers [("on", .string "\u3000"), ("rate", .string "\t "), ("note", .null),
          ("due", .string ""), ("extra", .string ""), ("other", .string "\n")] = .ok r ∧
        r.get? "rate" = some (.float64 .zero) ∧ r.toMembers = (Record.new c).toMembers) ∧
      c.ofMembers [("on", .string "\u3000"), ("count", .array [])] =
        .error (.field 1 "count" ⟨.array [], .int64, none⟩) := by
  let fields : List Field := [⟨"on", .boolean⟩, ⟨"count", .int⟩, ⟨"rate", .number⟩, ⟨"note", .string⟩,
    ⟨"due", .datetime⟩, ⟨"extra", .object⟩, ⟨"other", .any⟩]
  have accepted : Schema.ofFields fields = .ok ⟨fields, by decide +kernel⟩ := rfl
  refine ⟨_, accepted, ?_⟩
  intro c
  obtain ⟨hzero, hsame⟩ := absent_is_zero c
  constructor
  · let raw : Members := [("on", .string "\u3000"), ("rate", .string "\t "), ("note", .null),
      ("due", .string ""), ("extra", .string ""), ("other", .string "\n")]
    have nothing : ∀ f ∈ fields, f.type.Absent (raw.get? f.name) := by
      simp only [fields, List.forall_mem_cons]
      exact ⟨.blank (by decide) (by decide), .missing, .blank (by decide) (by decide), .null, .empty,
        .empty, .blank (by decide) (by decide), nofun⟩
    obtain ⟨r, hr, hget, hmembers⟩ := hzero raw nothing
    exact ⟨r, hr, hget ⟨"rate", .number⟩ (by decide), hmembers⟩
  · have hblank := hsame [("on", .null), ("count", .array [])] [("on", .string "\u3000"), ("count", .array [])]
      ⟨"on", .boolean⟩ (by decide) .null (.blank (by decide) (by decide)) (by
        intro name hname
        simp only [Members.get?, List.lookup_cons, beq_false_of_ne hname])
    rw [hblank]
    rfl

end Contract

end ExtensionKit
