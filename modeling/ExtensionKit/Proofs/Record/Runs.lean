import ExtensionKit.Proofs.Record.Filling

/-!
# Runs of a record

A record is reached from the one with no field set by assignments and fillings, which may fail. A failed
assignment leaves the record as it was; a failed filling leaves it filled up to the value that was
refused.

Whatever the calls, the values stay *sound*: each fits its field (`Record.Sound`, kept by every call and
so by every run). A sound record can be projected and read back: `Contract.ofMembers_toMembers` gives
the record *completed*, in which the unset fields hold their zeros, and its projection is the same.
-/

namespace ExtensionKit

/-- A call that changes a record. -/
inductive RecordCall where
  /-- assigns one field -/
  | set (name : String) (value : Value)
  /-- fills all fields -/
  | fill (raw : Members)

namespace Record

/-- The record after a call, whether it succeeds or fails. -/
def after (r : Record) : RecordCall → Record
  | .set name value =>
    match r.set name value with
    | .ok r' => r'
    | .error _ => r
  | .fill raw => (r.fill raw).1

/-- The record after some calls. -/
def run (r : Record) (calls : List RecordCall) : Record := calls.foldl after r

/-- The record with the zeros of its unset fields assigned. -/
def completed (r : Record) : Record :=
  ⟨r.contract, r.slots.map fun s => s.assign s.shown, by
    rw [← r.aligned, List.map_map]
    rfl⟩

end Record

/-! ## Sound values -/

/-- The value of the slot, if it is set, fits the field. -/
def Slot.Sound (s : Slot) : Prop := ∀ v, s.value = some v → v.Fits s.field.representation

theorem Slot.sound_assign {s : Slot} {v : Value} (fits : v.Fits s.field.representation) :
    (s.assign v).Sound := by
  intro w hw
  obtain rfl := Option.some.inj hw
  exact fits

theorem Slot.Sound.refill {s : Slot} (hs : s.Sound) (raw : Members) : (s.refill raw).Sound := by
  rw [Slot.refill]
  split
  · next v hv => exact sound_assign (Field.fits_of_incoming hv)
  · exact hs

/-- What a sound slot shows fits the field. -/
theorem Slot.Sound.shown {s : Slot} (hs : s.Sound) : s.shown.Fits s.field.representation := by
  rw [Slot.shown]
  cases hv : s.value with
  | none => exact Representation.fits_zero _
  | some v => exact hs v hv

namespace Record

/-- Every value of the record fits its field. -/
def Sound (r : Record) : Prop := ∀ s ∈ r.slots, s.Sound

theorem sound_new (c : Contract) : (new c).Sound := by
  intro s hs v hv
  obtain ⟨f, -, rfl⟩ := List.mem_map.mp hs
  cases hv

/-- An assignment keeps the record sound. -/
theorem Sound.set {r r' : Record} (hr : r.Sound) {name : String} {value : Value}
    (h : r.set name value = .ok r') : r'.Sound := by
  obtain ⟨f, hf, fits, rfl⟩ := set_eq_ok_iff.mp h
  intro t ht
  obtain ⟨s, hs, rfl⟩ := List.mem_map.mp ht
  by_cases hname : s.field.name = name
  · -- the field that was found is the field of this slot
    rw [if_pos hname]
    rw [← hname, Contract.field?_of_mem (field_mem hs)] at hf
    obtain rfl := Option.some.inj hf
    exact Slot.sound_assign fits
  · rw [if_neg hname]
    exact hr s hs

/-- A filling keeps the record sound, also one that stops half-way. -/
theorem Sound.fill {r : Record} (hr : r.Sound) (raw : Members) : (r.fill raw).1.Sound := by
  rcases all_ok_or_first_error (fun s : Slot => s.field.incoming raw) r.slots with
    hok | ⟨before, s, after, e, hslots, hbefore, he⟩
  · have hfill : (r.fill raw).1.slots = r.slots.map (Slot.refill raw) :=
      congrArg Prod.fst (Slot.fillAll_of_ok 0 hok)
    intro t ht
    rw [hfill] at ht
    obtain ⟨s, hs, rfl⟩ := List.mem_map.mp ht
    exact (hr s hs).refill raw
  · obtain ⟨hfill, -⟩ := fill_of_error hslots hbefore he
    intro t ht
    rw [hfill] at ht
    rw [Sound, hslots] at hr
    rcases List.mem_append.mp ht with ht | ht
    · obtain ⟨u, hu, rfl⟩ := List.mem_map.mp ht
      exact (hr u (List.mem_append_left _ hu)).refill raw
    · exact hr t (List.mem_append_right _ ht)

/-- **Every call keeps the record sound.** -/
theorem Sound.after {r : Record} (hr : r.Sound) (call : RecordCall) : (r.after call).Sound := by
  cases call with
  | set name value =>
    rw [Record.after]
    split
    · next r' h => exact hr.set h
    · exact hr
  | fill raw => exact hr.fill raw

/-- **Soundness is kept** by every run of calls. -/
theorem Sound.run {r : Record} (hr : r.Sound) (calls : List RecordCall) : (r.run calls).Sound := by
  induction calls generalizing r with
  | nil => exact hr
  | cons call rest ih => exact ih (hr.after call)

/-! ## The type of a record -/

theorem contract_after (r : Record) (call : RecordCall) : (r.after call).contract = r.contract := by
  cases call with
  | set name value =>
    rw [after]
    split
    · next r' h =>
      obtain ⟨f, -, -, rfl⟩ := set_eq_ok_iff.mp h
      rfl
    · rfl
  | fill raw => rfl

/-- No call changes the contract of a record. -/
theorem contract_run (r : Record) (calls : List RecordCall) :
    (r.run calls).contract = r.contract := by
  induction calls generalizing r with
  | nil => rfl
  | cons call rest ih => exact (ih _).trans (contract_after r call)

/-! ## Projection -/

/-- The keys of a projection are the declared names in order. -/
theorem keys_toMembers (r : Record) : r.toMembers.keys = r.contract.fields.map Field.name := by
  rw [toMembers, Members.keys, List.map_map]
  exact r.map_name_slots

theorem get?_toMembers {r : Record} {s : Slot} (hs : s ∈ r.slots) :
    r.toMembers.get? s.field.name = some s.shown.toJson := by
  apply Members.get?_of_mem
  · rw [keys_toMembers]
    exact r.contract.nodup_names
  · exact List.mem_map.mpr ⟨s, hs, rfl⟩

/-- The projection has the value of a set field, and the zero of any other. -/
theorem get?_toMembers_field {r : Record} {f : Field} (hf : f ∈ r.contract.fields) :
    r.toMembers.get? f.name = some ((r.get? f.name).getD f.zero).toJson := by
  obtain ⟨s, hs, rfl⟩ := exists_slot hf
  rw [get?_toMembers hs, get?_slot hs]
  rfl

/-- What a sound slot shows is what its projection is coerced to. -/
theorem incoming_toMembers {r : Record} {s : Slot} (hs : s ∈ r.slots) (sound : s.Sound) :
    s.field.incoming r.toMembers = .ok s.shown := by
  rw [Field.incoming, get?_toMembers hs]
  exact Coercion.apply_toJson sound.shown (FieldType.fieldCoercion_ne_toDateTime _)

theorem toMembers_completed (r : Record) : r.completed.toMembers = r.toMembers := by
  rw [toMembers, completed, List.map_map]
  rfl

/-- The completed record has what the record has, and zeros elsewhere. -/
theorem get?_completed {r : Record} {f : Field} (hf : f ∈ r.contract.fields) :
    r.completed.get? f.name = some ((r.get? f.name).getD f.zero) := by
  obtain ⟨s, hs, rfl⟩ := exists_slot hf
  have hs' : s.assign s.shown ∈ r.completed.slots := List.mem_map.mpr ⟨s, hs, rfl⟩
  rw [get?_slot hs]
  exact get?_slot hs'

end Record

namespace Contract

variable {c : Contract} {raw : Members} {r : Record}

/-- A record that an object describes is of the contract that takes the object. -/
theorem contract_of_ofMembers (h : c.ofMembers raw = .ok r) : r.contract = c := by
  obtain ⟨-, rfl⟩ := ofMembers_eq_ok_iff.mp h
  rfl

/-- A record that an object describes is sound. -/
theorem sound_of_ofMembers (h : c.ofMembers raw = .ok r) : r.Sound := by
  obtain ⟨taken, rfl⟩ := ofMembers_eq_ok_iff.mp h
  have hfill : (Record.new c).fill raw = ((Record.new c).refill raw, none) := Record.fill_of_ok taken
  have hsound := (Record.sound_new c).fill raw
  rwa [hfill] at hsound

theorem keys_of_ofMembers (h : c.ofMembers raw = .ok r) :
    r.toMembers.keys = c.fields.map Field.name := by
  rw [r.keys_toMembers, contract_of_ofMembers h]

end Contract

/-- **Reading a projection back** completes a sound record. -/
theorem Contract.ofMembers_toMembers {r : Record} (hr : r.Sound) :
    r.contract.ofMembers r.toMembers = .ok r.completed := by
  have htaken : ∀ f ∈ r.contract.fields, ∃ v, f.incoming r.toMembers = .ok v := by
    intro f hf
    obtain ⟨s, hs, rfl⟩ := Record.exists_slot hf
    exact ⟨s.shown, Record.incoming_toMembers hs (hr s hs)⟩
  rw [ofMembers_of_ok htaken]
  refine congrArg Except.ok (Record.ext rfl ?_)
  change ((r.contract.fields.map fun f => (⟨f, none⟩ : Slot)).map _) = r.slots.map _
  rw [← r.aligned, List.map_map, List.map_map]
  apply List.map_congr_left
  intro s hs
  exact Slot.refill_eq (s := ⟨s.field, none⟩) (Record.incoming_toMembers hs (hr s hs))

/-- The projection of a sound record has the declared keys, and is read back and projected again without
a change. -/
theorem Record.Sound.projection {r : Record} (hr : r.Sound) :
    r.toMembers.keys = r.contract.fields.map Field.name ∧
      ∃ r', r.contract.ofMembers r.toMembers = .ok r' ∧ r'.toMembers = r.toMembers :=
  ⟨r.keys_toMembers, r.completed, Contract.ofMembers_toMembers hr, r.toMembers_completed⟩

/-! ## The main statement -/

/-- **Records survive their projection.** Whatever calls a record goes through, failed ones included:
its values fit their fields; its projection has the declared names as keys, in order, with a numeral for
every number; and the projection is read back to a record that holds the same values, and zeros where
nothing was set, and that is projected to the same object. -/
theorem Record.toMembers_run_roundTrip {fields : List Field} {schema : Schema}
    (accepted : Schema.ofFields fields = .ok schema) (name : String) (stamp : Nat)
    (calls : List RecordCall) :
    let c := Contract.compile name schema stamp
    let r := (Record.new c).run calls
    (r.slots.map Slot.field = fields ∧
      ∀ s ∈ r.slots, ∀ v, s.value = some v → v.representation = s.field.representation ∧
        ∀ x, v = .float64 x → x.isFinite = true) ∧
    (r.toMembers.keys = fields.map Field.name ∧ r.toMembers.keys.Nodup ∧
      ∀ f ∈ fields, f.type = .number → ∃ j, r.toMembers.get? f.name = some j ∧ j ≠ .null) ∧
    ∃ r', c.ofMembers r.toMembers = .ok r' ∧
      (∀ f ∈ fields, r'.get? f.name = some ((r.get? f.name).getD f.representation.zero)) ∧
      r'.toMembers = r.toMembers := by
  obtain rfl := Schema.fields_of_ofFields accepted
  intro c r
  have hsound : r.Sound := (sound_new c).run calls
  have hcontract : r.contract = c := contract_run (new c) calls
  have hfields : r.contract.fields = schema.fields := congrArg Contract.fields hcontract
  have hkeys : r.toMembers.keys = schema.fields.map Field.name := by
    rw [keys_toMembers, hfields]
  refine ⟨⟨r.aligned.trans hfields, ?_⟩, ⟨hkeys, hkeys ▸ schema.nodup_names, ?_⟩,
    r.completed, ?_, ?_, toMembers_completed r⟩
  · intro s hs v hv
    have fits := hsound s hs v hv
    exact ⟨fits.held, fits.finite⟩
  · intro f hf hnumber
    obtain ⟨s, hs, rfl⟩ := exists_slot (hfields ▸ hf)
    have fits := (hsound s hs).shown
    rw [Field.representation, Field.coercion, hnumber] at fits
    exact ⟨s.shown.toJson, get?_toMembers hs, fits.toJson_ne_null⟩
  · rw [← hcontract]
    exact Contract.ofMembers_toMembers hsound
  · intro f hf
    exact get?_completed (hfields ▸ hf)

/-- A run in which every call fails: `nan` is refused, and the filling stops at the second field. -/
theorem Record.toMembers_run_failedCalls :
    ∃ schema, Schema.ofFields [⟨"ratio", .number⟩, ⟨"count", .int⟩] = .ok schema ∧
      let c := Contract.compile "Reading" schema
      let r := (Record.new c).run
        [.set "ratio" (.float64 .nan), .fill [("ratio", .null), ("count", .array [])]]
      r.get? "ratio" = some (.float64 .zero) ∧ r.get? "count" = none ∧
        ∃ r', c.ofMembers r.toMembers = .ok r' ∧ r'.get? "count" = some (.int64 0) ∧
          r'.toMembers = r.toMembers := by
  have accepted : Schema.ofFields [⟨"ratio", .number⟩, ⟨"count", .int⟩] =
      .ok ⟨[⟨"ratio", .number⟩, ⟨"count", .int⟩], by decide +kernel⟩ := rfl
  obtain ⟨-, -, r', hread, hget, hsame⟩ := Record.toMembers_run_roundTrip accepted "Reading" 0
    [.set "ratio" (.float64 .nan), .fill [("ratio", .null), ("count", .array [])]]
  refine ⟨_, accepted, rfl, rfl, r', hread, ?_, hsame⟩
  exact hget ⟨"count", .int⟩ (List.mem_cons_of_mem _ (List.mem_cons_self ..))

end ExtensionKit
