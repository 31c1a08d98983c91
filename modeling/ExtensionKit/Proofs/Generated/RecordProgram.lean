import ExtensionKit.Proofs.Generated.Layout
import ExtensionKit.Proofs.Generated.LegalIdentifiers
import ExtensionKit.Proofs.Record.Filling
import ExtensionKit.Proofs.Text.Literal
import Mathlib.Data.List.Forall2

/-!
# Generated record types as programs

The source of a record type is read as a program with a member, an insertion and a step for each field
(`Program`). `Program.Written` says which program a source is. Every literal in it has to be read as the
text that the program has there, and every routine and variant is looked up by its name. A comment goes to
the end of its line and no further; so a declared name with a line feed does not stay in its comment, and
the comment on a member, which is documentation, may hold no carriage return either. A source is one
program at most (`Program.Written.unique`).

The source of a contract is a program that mirrors it exactly if all declared names can stand in comments
(`recordSource_mirrors`), and this program does what the contract does.

* It has for each field, at its position, what the contract says of it (`Program.Mirrors`). In particular
  the value that a routine gives is always of the variant that is assigned, and what this variant holds has
  the type of the member.
* Instances of the structure do what records of the contract do: what they hold is what the record shows,
  before a filling and after it, with the same projection and the same error (`Program.Simulates`).
-/

namespace ExtensionKit.Generated

open Text

/-! ## Programs -/

/-- A coercion routine, as it is called. -/
abbrev Routine := Json → Except CoercionError Value

/-- A member of a structure. -/
structure Member where
  /-- its identifier -/
  ident : String
  /-- its type -/
  type : String
deriving DecidableEq

/-- A statement that inserts a member into the map of a projection. -/
structure Insertion where
  /-- the key -/
  key : String
  /-- the identifier of the member -/
  member : String
deriving DecidableEq

/-- The statements that fill a member from a map. The value of a key is coerced by a routine. If that
fails, the error has a position and a label; else the value is assigned to the member if it is of a given
variant. -/
structure Step where
  /-- the key -/
  key : String
  /-- the routine -/
  routine : Routine
  /-- the position in the error -/
  index : Nat
  /-- the label in the error -/
  label : String
  /-- the name of the variant -/
  variant : String
  /-- the identifier of the member -/
  member : String

/-- A generated record type. -/
structure Program where
  /-- the members of the structure -/
  members : List Member
  /-- the insertions of the projection -/
  insertions : List Insertion
  /-- the steps of the filling -/
  steps : List Step

/-! ## What names stand for -/

/-- The coercion routines by their names. -/
def routines : List (String × Routine) :=
  [("to_string", fun raw => .ok (.string raw.toText)),
    ("to_float64", fun raw => raw.toFloat64.map .float64),
    ("to_int64", fun raw => raw.toInt64.map .int64),
    ("to_bool", fun raw => raw.toBool.map .bool),
    ("to_object", fun raw => raw.toObject.map .object),
    ("to_datetime", fun raw => raw.toDateTime.map .datetime),
    ("passthrough", fun raw => .ok (.any raw))]

/-- The variants of the type of values, each with the type of what it holds. -/
def payloadTypes : List (String × String) :=
  [("String", "String"), ("Float64", "f64"), ("Bool", "bool"), ("Int64", "i64"),
    ("DateTime", "chrono::DateTime<chrono::FixedOffset>"),
    ("Object", "serde_json::Map<String, serde_json::Value>"), ("Any", "serde_json::Value")]

/-- The name of the variant that a value is of. -/
def variantName : Value → String
  | .string _ => "String"
  | .float64 _ => "Float64"
  | .bool _ => "Bool"
  | .int64 _ => "Int64"
  | .datetime _ => "DateTime"
  | .object _ => "Object"
  | .any _ => "Any"

/-! ## What programs look like -/

/-- The lines of a member, with a comment of documentation. -/
def Member.Written (m : Member) (lines : List String) : Prop :=
  ∃ note : String, '\r' ∉ note.toList ∧ Identifier.IsLegal m.ident.toList ∧
    lines = ["    /// " ++ note, "    pub " ++ m.ident ++ ": " ++ m.type ++ ","]

/-- The line of an insertion. -/
def Insertion.Written (ins : Insertion) (lines : List String) : Prop :=
  ∃ key : String, Literal.Denotes key ins.key ∧
    lines = ["        map.insert(" ++ key ++ ".to_string(), serde_json::json!(self." ++ ins.member ++ "));"]

/-- The lines of a step, with a comment. -/
def Step.Written (st : Step) (lines : List String) : Prop :=
  ∃ note key routine position label : String,
    Literal.Denotes key st.key ∧ Literal.Denotes label st.label ∧
    routines.lookup routine = some st.routine ∧
    Digits position.toList ∧ numeralValue position.toList = st.index ∧
    lines =
      ["        // " ++ note,
        "        let raw = values.get(" ++ key ++ ").unwrap_or(&null);",
        "        let typed = flowgen_core::coerce::" ++ routine ++ "(raw).map_err(|source| \x7b",
        "            flowgen_core::ContractError::FieldCoercion \x7b index: " ++ position ++
          ", field: " ++ label ++ ".into(), source \x7d",
        "        \x7d)?;",
        "        if let flowgen_core::TypedValue::" ++ st.variant ++ "(v) = typed \x7b",
        "            self." ++ st.member ++ " = v;",
        "        \x7d"]

/-- The source is a program under a type name, laid out in whole lines. -/
def Program.Written (p : Program) (typeName source : String) : Prop :=
  ∃ members insertions steps, IsLayout members insertions steps ∧
    List.Forall₂ Member.Written p.members members ∧
    List.Forall₂ Insertion.Written p.insertions insertions ∧
    List.Forall₂ Step.Written p.steps steps ∧
    source = textOfLines (layout typeName members insertions steps)

/-! ## What programs do -/

/-- An instance of a structure: what its members hold. -/
def Instance := String → Value

/-- An instance with another value in a member. -/
def Instance.assign (x : Instance) (member : String) (value : Value) : Instance :=
  fun ident => if ident = member then value else x ident

/-- Runs a step. A value of another variant than the one that is matched is dropped. -/
def Step.run (raw : Members) (st : Step) (x : Instance) : Except RecordError Instance :=
  match st.routine ((raw.get? st.key).getD .null) with
  | .error e => .error (.field st.index st.label e)
  | .ok v => .ok (if variantName v = st.variant then x.assign st.member v else x)

/-- Runs steps up to the first that fails. -/
def Step.runAll (raw : Members) : List Step → Instance → Instance × Option RecordError
  | [], x => (x, none)
  | st :: rest, x =>
    match st.run raw x with
    | .error e => (x, some e)
    | .ok y => runAll raw rest y

/-- The projection of an instance to a map. -/
def Program.project (p : Program) (x : Instance) : Members :=
  p.insertions.map fun ins => (ins.key, (x ins.member).toJson)

/-- Fills an instance from a map. -/
def Program.fill (p : Program) (raw : Members) (x : Instance) : Instance × Option RecordError :=
  Step.runAll raw p.steps x

/-! ## Programs of contracts -/

/-- A program has for each field what its contract says of it. -/
structure Program.Mirrors (p : Program) (c : Contract) : Prop where
  /-- there is a member for each field and no other -/
  members_length : p.members.length = c.size
  /-- there is an insertion for each field and no other -/
  insertions_length : p.insertions.length = c.size
  /-- there is a step for each field and no other -/
  steps_length : p.steps.length = c.size
  /-- no two members have the same identifier -/
  distinct : (p.members.map Member.ident).Nodup
  /-- the member of a field has its identifier and the type of its representation -/
  member : ∀ (i : Nat) (f : Field), c.fields[i]? = some f →
    p.members[i]? = some (⟨f.ident, f.representation.sourceType⟩ : Member)
  /-- the insertion of a field has its declared name and reads its member -/
  insertion : ∀ (i : Nat) (f : Field), c.fields[i]? = some f →
    p.insertions[i]? = some (⟨f.name, f.ident⟩ : Insertion)
  /-- the step of a field looks up its declared name and calls its routine, has its position and its
  declared name in the error, and assigns its member from the variant of its representation -/
  step : ∀ (i : Nat) (f : Field), c.fields[i]? = some f →
    p.steps[i]? =
      some (⟨f.name, f.coercion.apply, i, f.name, f.representation.variant, f.ident⟩ : Step)
  /-- a step never drops the value that its routine gives -/
  taken : ∀ st ∈ p.steps, ∀ raw v, st.routine raw = .ok v → variantName v = st.variant
  /-- what the variant of a step holds has the type of the member that is assigned -/
  typed : ∀ st ∈ p.steps, ∃ m ∈ p.members, m.ident = st.member ∧
    payloadTypes.lookup st.variant = some m.type

/-- The instance that holds what a record shows. -/
def Instance.ofRecord (r : Record) : Instance := fun ident =>
  match r.slots.find? fun s => s.field.ident == ident with
  | some s => s.shown
  | none => .any .null

/-- A program does what records of a contract do: an instance that holds what a record shows has the same
projection, and after a filling it holds what the record shows then, with the same error. -/
def Program.Simulates (p : Program) (c : Contract) : Prop :=
  ∀ r : Record, r.contract = c →
    p.project (.ofRecord r) = r.toMembers ∧
    ∀ raw, p.fill raw (.ofRecord r) = (.ofRecord (r.fill raw).1, (r.fill raw).2)

/-- The member of a field. -/
def Member.ofField (f : Field) : Member := ⟨f.ident, f.representation.sourceType⟩

/-- The insertion of a field. -/
def Insertion.ofField (f : Field) : Insertion := ⟨f.name, f.ident⟩

/-- The step of a field at a position. -/
def Step.ofField (f : Field) (index : Nat) : Step :=
  ⟨f.name, f.coercion.apply, index, f.name, f.representation.variant, f.ident⟩

/-- The steps of fields, the first of which has the given position. -/
def Step.ofFields (index : Nat) (fields : List Field) : List Step :=
  (fields.zipIdx index).map fun (f, index) => .ofField f index

/-- The program of a contract. -/
def Program.ofContract (c : Contract) : Program :=
  ⟨c.fields.map .ofField, c.fields.map .ofField, Step.ofFields 0 c.fields⟩

/-! ## A source is one program -/

/-- The lines of a member tell its identifier, up to the colon, and its type. -/
theorem Member.leftUnique_written : Relator.LeftUnique Member.Written := by
  rintro m m' lines ⟨note, -, legal, rfl⟩ ⟨note', -, legal', heq⟩
  obtain ⟨-, hrest⟩ := List.cons.inj heq
  obtain ⟨hline, -⟩ := List.cons.inj hrest
  have hcolon {word : List Char} (h : Identifier.IsLegal word) : ':' ∉ word :=
    fun hmem => absurd (h.all _ hmem) (by decide)
  simp only [String.append_assoc, String.append_right_inj] at hline
  obtain ⟨hident, htype⟩ := delimited_inj rfl (hcolon legal) (hcolon legal') hline
  cases m
  cases m'
  rw [Member.mk.injEq]
  exact ⟨hident, (String.append_left_inj _).mp htype⟩

/-- The line of an insertion tells its key, by the end of the literal, and its member. -/
theorem Insertion.leftUnique_written : Relator.LeftUnique Insertion.Written := by
  rintro ins ins' lines ⟨key, denotes, rfl⟩ ⟨key', denotes', heq⟩
  obtain ⟨hline, -⟩ := List.cons.inj heq
  simp only [String.append_assoc, String.append_right_inj] at hline
  obtain ⟨hkey, hrest⟩ := denotes.inj denotes' hline
  cases ins
  cases ins'
  rw [Insertion.mk.injEq]
  simp only [String.append_right_inj, String.append_left_inj] at hrest
  exact ⟨hkey, hrest⟩

/-- The lines of a step tell all of it but the comment. -/
theorem Step.leftUnique_written : Relator.LeftUnique Step.Written := by
  rintro st st' lines ⟨note, key, routine, position, label, denotes, labels, calls, digits, value, rfl⟩
    ⟨note', key', routine', position', label', denotes', labels', calls', digits', value', heq⟩
  simp only [List.cons.injEq, String.append_assoc, String.append_right_inj] at heq
  obtain ⟨-, hkey, hroutine, herror, -, hvariant, hmember, -⟩ := heq
  have hcomma {ds : List Char} (h : Digits ds) : ',' ∉ ds := fun hmem => absurd (h.all _ hmem) (by decide)
  obtain ⟨hposition, hlabel⟩ := delimited_inj rfl (hcomma digits) (hcomma digits') herror
  obtain rfl := (String.append_left_inj _).mp hroutine
  subst hposition
  cases st
  cases st'
  rw [Step.mk.injEq]
  exact ⟨(denotes.inj denotes' hkey).1, Option.some.inj (calls.symm.trans calls'), value.symm.trans value',
    (labels.inj labels' hlabel).1, (String.append_left_inj _).mp hvariant,
    (String.append_left_inj _).mp hmember⟩

/-- **A source is one program.** -/
theorem Program.Written.unique {p q : Program} {typeName source : String} (hp : p.Written typeName source)
    (hq : q.Written typeName source) : p = q := by
  obtain ⟨members, insertions, steps, hlayout, hmembers, hinsertions, hsteps, rfl⟩ := hp
  obtain ⟨members', insertions', steps', hlayout', hmembers', hinsertions', hsteps', heq⟩ := hq
  obtain ⟨rfl, rfl, rfl⟩ := layout_inj hlayout hlayout' heq
  cases p
  cases q
  rw [Program.mk.injEq]
  exact ⟨Member.leftUnique_written.forall₂ hmembers hmembers',
    Insertion.leftUnique_written.forall₂ hinsertions hinsertions',
    Step.leftUnique_written.forall₂ hsteps hsteps'⟩

/-! ## What the source looks like -/

/-- The comment on the member of a field. -/
def memberNote (f : Field) : String := "`" ++ (f.name ++ ("` (" ++ (f.type.name ++ ")")))

theorem memberLines_eq (f : Field) :
    memberLines f =
      ["    /// " ++ memberNote f, "    pub " ++ f.ident ++ ": " ++ f.representation.sourceType ++ ","] := by
  have hopening : "    /// `" = "    /// " ++ "`" := by simp only [String.reduceAppend]
  rw [memberLines, memberNote, hopening]
  simp only [String.append_assoc]

theorem carriageReturn_mem_memberNote {f : Field} :
    '\r' ∈ (memberNote f).toList ↔ '\r' ∈ f.name.toList := by
  have htype : '\r' ∉ f.type.name.toList := by
    cases f.type <;> decide
  have hmarks : '\r' ∉ "`".toList ∧ '\r' ∉ "` (".toList ∧ '\r' ∉ ")".toList := by decide
  obtain ⟨hopening, hmiddle, hclosing⟩ := hmarks
  simp only [memberNote, String.toList_append, List.mem_append, htype, hopening, hmiddle, hclosing, false_or,
    or_false]

/-- The identifier of a member is legal. -/
theorem Field.isLegal_ident (f : Field) : Identifier.IsLegal f.ident.toList := by
  rw [Field.ident, Identifier.exported, String.toList_ofList]
  exact (Identifier.isLegal_exportedBy Identifier.capitalRule_capital f.name.toList).1

/-- A declaration is a member if the declared name can stand in documentation. -/
theorem Member.written {f : Field} (h : '\r' ∉ f.name.toList) : (ofField f).Written (memberLines f) :=
  ⟨memberNote f, mt carriageReturn_mem_memberNote.mp h, Field.isLegal_ident f, memberLines_eq f⟩

theorem Insertion.written (f : Field) : (ofField f).Written [insertLine f] :=
  ⟨Literal.quote f.name, Literal.denotes_quote f.name, rfl⟩

/-- The name of a routine is looked up as this routine. -/
theorem lookup_routines (c : Coercion) : routines.lookup c.name = some c.apply := by cases c <;> rfl

theorem Step.written (f : Field) (index : Nat) : (ofField f index).Written (fillLines index f) := by
  refine ⟨f.name ++ (" " ++ f.type.name), Literal.quote f.name, f.coercion.name, positionText index,
    Literal.quote f.name, Literal.denotes_quote f.name, Literal.denotes_quote f.name,
    lookup_routines f.coercion, ?_, ?_, ?_⟩
  · rw [positionText, String.toList_ofList]
    exact digits_decimal index
  · rw [positionText, String.toList_ofList]
    exact numeralValue_decimal index
  · rw [fillLines]
    simp only [String.append_assoc]
    rfl

/-- **The source of a record type is the program of its contract**, if the declared names can stand in
comments. -/
theorem Program.written_recordSource (typeName : String) {c : Contract}
    (h : ∀ f ∈ c.fields, '\n' ∉ f.name.toList ∧ '\r' ∉ f.name.toList) :
    (ofContract c).Written typeName (recordSource typeName c) := by
  refine ⟨_, _, _, isLayout_recordSource fun f hf => (h f hf).1, ?_, ?_, ?_,
    recordSource_eq_layout typeName c⟩
  · exact List.forall₂_map_left_iff.mpr (List.forall₂_map_right_iff.mpr
      (List.forall₂_same.mpr fun f hf => Member.written (h f hf).2))
  · exact List.forall₂_map_left_iff.mpr (List.forall₂_map_right_iff.mpr
      (List.forall₂_same.mpr fun f _ => Insertion.written f))
  · exact List.forall₂_map_left_iff.mpr (List.forall₂_map_right_iff.mpr
      (List.forall₂_same.mpr fun (f, index) _ => Step.written f index))

/-- A source that is a program with as many parts as there are fields has no more lines than it should, so
no name adds one. -/
theorem Program.Written.lineFeed_notMem {p : Program} {typeName : String} {c : Contract}
    (h : p.Written typeName (recordSource typeName c)) (hmembers : p.members.length = c.size)
    (hinsertions : p.insertions.length = c.size) (hsteps : p.steps.length = c.size) :
    ∀ f ∈ c.fields, '\n' ∉ f.name.toList := by
  obtain ⟨members, insertions, steps, hlayout, hms, his, hss, hsource⟩ := h
  rw [hms.length_eq] at hmembers
  rw [his.length_eq] at hinsertions
  rw [hss.length_eq] at hsteps
  have hlines := lineFeeds_layout typeName hlayout (hinsertions.trans hmembers.symm)
    (hsteps.trans hmembers.symm)
  rw [← hsource, lineFeeds_recordSource, hmembers] at hlines
  exact nameFeeds_eq_zero_iff.mp (by omega)

/-- A source that is a program with as many parts as there are fields has no carriage return in the comments
on its members. -/
theorem Program.Written.carriageReturn_notMem {p : Program} {typeName : String} {c : Contract}
    (h : p.Written typeName (recordSource typeName c)) (hfeeds : ∀ f ∈ c.fields, '\n' ∉ f.name.toList) :
    ∀ f ∈ c.fields, '\r' ∉ f.name.toList := by
  obtain ⟨members, insertions, steps, hlayout, hmembers, -, -, hsource⟩ := h
  rw [recordSource_eq_layout] at hsource
  obtain ⟨rfl, -, -⟩ := layout_inj (isLayout_recordSource hfeeds) hlayout hsource
  intro f hf
  obtain ⟨i, hi, rfl⟩ := List.mem_iff_getElem.mp hf
  obtain ⟨hlength, hget⟩ := List.forall₂_iff_get.mp (List.forall₂_map_right_iff.mp hmembers)
  obtain ⟨note, hnote, -, hlines⟩ := hget i (hlength ▸ hi) hi
  rw [memberLines_eq] at hlines
  obtain rfl := (String.append_right_inj _).mp (List.cons.inj hlines).1
  exact mt carriageReturn_mem_memberNote.mpr hnote

/-! ## What the program of a contract has -/

/-- The variant of a representation holds what has its type. -/
theorem lookup_payloadTypes (r : Representation) :
    payloadTypes.lookup r.variant = some r.sourceType := by cases r <;> rfl

/-- A value is of the variant of its representation. -/
theorem variantName_eq {v : Value} {r : Representation} (held : v.representation = r) :
    variantName v = r.variant := by
  subst held
  cases v <;> rfl

theorem Step.mem_ofFields {index : Nat} {fields : List Field} {st : Step} (h : st ∈ ofFields index fields) :
    ∃ f ∈ fields, ∃ i, st = ofField f i := by
  obtain ⟨⟨f, i⟩, hmem, rfl⟩ := List.mem_map.mp h
  exact ⟨f, List.fst_mem_of_mem_zipIdx hmem, i, rfl⟩

theorem Step.getElem?_ofFields {fields : List Field} {i : Nat} {f : Field} (h : fields[i]? = some f) :
    (ofFields 0 fields)[i]? = some (ofField f i) := by
  rw [ofFields, List.getElem?_map, List.getElem?_zipIdx, h, Nat.zero_add]
  rfl

/-- **The program of a contract has for each field what the contract says of it.** -/
theorem Program.mirrors_ofContract (c : Contract) : (ofContract c).Mirrors c where
  members_length := List.length_map ..
  insertions_length := List.length_map ..
  steps_length := (List.length_map ..).trans List.length_zipIdx
  distinct := by
    rw [ofContract, List.map_map]
    exact c.schema.distinct
  member i f h := by
    rw [ofContract, List.getElem?_map, h]
    rfl
  insertion i f h := by
    rw [ofContract, List.getElem?_map, h]
    rfl
  step i f h := Step.getElem?_ofFields h
  taken st hst raw v h := by
    obtain ⟨f, -, i, rfl⟩ := Step.mem_ofFields hst
    exact variantName_eq (Coercion.fits_of_apply h).held
  typed st hst := by
    obtain ⟨f, hf, i, rfl⟩ := Step.mem_ofFields hst
    exact ⟨.ofField f, List.mem_map_of_mem hf, rfl, lookup_payloadTypes f.representation⟩

/-! ## What the program of a contract does -/

/-- A value that a routine gives is assigned, since it is of the variant that is matched. -/
theorem Step.run_of_ok {raw : Members} {f : Field} {v : Value} (h : f.incoming raw = .ok v)
    (index : Nat) (x : Instance) : (ofField f index).run raw x = .ok (x.assign f.ident v) := by
  have held : v.representation = f.representation := (Field.fits_of_incoming h).held
  rw [Field.incoming] at h
  have taken : variantName v = f.representation.variant := variantName_eq held
  simp only [run, ofField, h]
  exact congrArg Except.ok (if_pos taken)

/-- An error has the position and the name of its field. -/
theorem Step.run_of_error {raw : Members} {f : Field} {e : CoercionError} (h : f.incoming raw = .error e)
    (index : Nat) (x : Instance) : (ofField f index).run raw x = .error (.field index f.name e) := by
  rw [Field.incoming] at h
  simp only [run, ofField, h]

theorem Instance.assign_self (x : Instance) (member : String) (value : Value) :
    x.assign member value member = value := if_pos rfl

theorem Instance.assign_of_ne {x : Instance} {ident member : String} (h : ident ≠ member)
    (value : Value) : x.assign member value ident = x ident := if_neg h

/-- What a record shows of a slot is held under the identifier of its field. -/
theorem Instance.ofRecord_slot {r : Record} {s : Slot} (hs : s ∈ r.slots) :
    ofRecord r s.field.ident = s.shown := by
  have hfind : (r.slots.find? fun t => t.field.ident == s.field.ident) = some s :=
    find?_key r.nodup_idents hs
  rw [ofRecord, hfind]

theorem Instance.ofRecord_of_notMem {r : Record} {ident : String}
    (h : ident ∉ r.contract.fields.map Field.ident) : ofRecord r ident = .any .null := by
  have hfind : (r.slots.find? fun s => s.field.ident == ident) = none := by
    rw [List.find?_eq_none]
    intro s hs heq
    exact h (List.mem_map.mpr ⟨s.field, Record.field_mem hs, eq_of_beq heq⟩)
  rw [ofRecord, hfind]

/-- The members that are assigned are those of the fields. -/
theorem Step.runAll_of_notMem (raw : Members) {fields : List Field} {ident : String}
    (h : ident ∉ fields.map Field.ident) (index : Nat) (x : Instance) :
    (runAll raw (ofFields index fields) x).1 ident = x ident := by
  induction fields generalizing index x with
  | nil => rfl
  | cons f fields ih =>
    obtain ⟨hne, hrest⟩ := not_or.mp (mt List.mem_cons.mpr h)
    rw [ofFields, List.zipIdx_cons, List.map_cons, runAll]
    rcases hf : f.incoming raw with e | v
    · rw [run_of_error hf]
    · rw [run_of_ok hf]
      exact (ih hrest (index + 1) _).trans (Instance.assign_of_ne hne v)

/-- **Steps do to an instance what a filling does to slots.** -/
theorem Step.runAll_slots (raw : Members) {slots : List Slot} {x : Instance} (index : Nat)
    (distinct : (slots.map fun s => s.field.ident).Nodup) (h : ∀ s ∈ slots, x s.field.ident = s.shown) :
    (runAll raw (ofFields index (slots.map Slot.field)) x).2 = (Slot.fillAll raw index slots).2 ∧
      ∀ s ∈ (Slot.fillAll raw index slots).1,
        (runAll raw (ofFields index (slots.map Slot.field)) x).1 s.field.ident = s.shown := by
  induction slots generalizing index x with
  | nil => exact ⟨rfl, h⟩
  | cons s slots ih =>
    obtain ⟨hfresh, hrest⟩ := List.nodup_cons.mp distinct
    rw [List.map_cons, ofFields, List.zipIdx_cons, List.map_cons, runAll]
    rcases hs : s.field.incoming raw with e | v
    · rw [run_of_error hs, Slot.fillAll_cons_error hs]
      exact ⟨rfl, h⟩
    · rw [run_of_ok hs, Slot.fillAll_cons_ok hs, Slot.refill_eq hs]
      have hothers : ∀ t ∈ slots, x.assign s.field.ident v t.field.ident = t.shown := by
        intro t ht
        have hne : t.field.ident ≠ s.field.ident :=
          fun heq => hfresh (List.mem_map.mpr ⟨t, ht, heq⟩)
        rw [Instance.assign_of_ne hne]
        exact h t (List.mem_cons_of_mem s ht)
      obtain ⟨herror, hslots⟩ := ih (index + 1) hrest hothers
      refine ⟨herror, fun t ht => ?_⟩
      rcases List.mem_cons.mp ht with rfl | ht
      · -- later steps leave the member alone
        have hlater : s.field.ident ∉ (slots.map Slot.field).map Field.ident := by
          rwa [List.map_map]
        exact (runAll_of_notMem raw hlater (index + 1) _).trans (Instance.assign_self ..)
      · exact hslots t ht

/-- **The projection of an instance** is that of the record. -/
theorem Program.project_ofRecord (r : Record) :
    (ofContract r.contract).project (.ofRecord r) = r.toMembers := by
  have hmembers : r.toMembers =
      r.slots.map fun s => (s.field.name, (Instance.ofRecord r s.field.ident).toJson) := by
    apply List.map_congr_left
    intro s hs
    rw [Instance.ofRecord_slot hs]
    rfl
  rw [hmembers, project, ofContract, ← r.aligned, List.map_map, List.map_map]
  rfl

/-- **The filling of an instance** does what the filling of the record does. -/
theorem Program.fill_ofRecord (r : Record) (raw : Members) :
    (ofContract r.contract).fill raw (.ofRecord r) = (.ofRecord (r.fill raw).1, (r.fill raw).2) := by
  obtain ⟨herror, hslots⟩ :=
    Step.runAll_slots raw 0 r.nodup_idents fun s hs => Instance.ofRecord_slot hs
  rw [r.aligned] at herror hslots
  refine Prod.ext (funext fun ident => ?_) herror
  by_cases hident : ident ∈ r.contract.fields.map Field.ident
  · obtain ⟨f, hf, rfl⟩ := List.mem_map.mp hident
    obtain ⟨s, hs, rfl⟩ := Record.exists_slot (r := (r.fill raw).1) hf
    exact (hslots s hs).trans (Instance.ofRecord_slot hs).symm
  · have hkept := Step.runAll_of_notMem raw hident 0 (.ofRecord r)
    rw [Instance.ofRecord_of_notMem hident] at hkept
    exact hkept.trans (Instance.ofRecord_of_notMem (r := (r.fill raw).1) hident).symm

theorem Program.simulates_ofContract (c : Contract) : (ofContract c).Simulates c := by
  rintro r rfl
  exact ⟨project_ofRecord r, fill_ofRecord r⟩

/-- **Generated record types mirror their contracts.** The source of a record type, under any type name, is
a program that has for each field what the contract says of it exactly if no declared name holds a line
feed or a carriage return, which would not stay in its comment. There is no other program that it is, and
the instances of this one do what the records of the contract do. -/
theorem recordSource_mirrors (typeName : String) (c : Contract) :
    ((∃ p : Program, p.Written typeName (recordSource typeName c) ∧ p.Mirrors c) ↔
      ∀ f ∈ c.fields, '\n' ∉ f.name.toList ∧ '\r' ∉ f.name.toList) ∧
    ∀ p : Program, p.Written typeName (recordSource typeName c) → p.Mirrors c →
      p.Simulates c ∧ ∀ q : Program, q.Written typeName (recordSource typeName c) → q = p := by
  have hnames (p : Program) (hp : p.Written typeName (recordSource typeName c)) (hm : p.Mirrors c) :
      ∀ f ∈ c.fields, '\n' ∉ f.name.toList ∧ '\r' ∉ f.name.toList := by
    have hfeeds := hp.lineFeed_notMem hm.members_length hm.insertions_length hm.steps_length
    exact fun f hf => ⟨hfeeds f hf, hp.carriageReturn_notMem hfeeds f hf⟩
  refine ⟨⟨fun ⟨p, hp, hm⟩ => hnames p hp hm, fun h => ?_⟩, fun p hp hm => ⟨?_, fun q hq => hq.unique hp⟩⟩
  · exact ⟨.ofContract c, Program.written_recordSource typeName h, Program.mirrors_ofContract c⟩
  · rw [hp.unique (Program.written_recordSource typeName (hnames p hp hm))]
    exact Program.simulates_ofContract c

/-- A quote in the name of a field is kept in the key and in the label, and a date is text in a record. -/
theorem recordSource_mirrors_quote :
    ∃ schema, Schema.ofFields [⟨"n", .int⟩, ⟨"a\"b", .datetime⟩] = .ok schema ∧
      let c := Contract.compile "T" schema
      ∃ p : Program, p.Written "T" (recordSource "T" c) ∧ p.Mirrors c ∧ p.Simulates c ∧
        p.members[1]? = some (⟨"A_b", "String"⟩ : Member) ∧
        p.steps[1]? = some (⟨"a\"b", fun raw => .ok (.string raw.toText), 1, "a\"b", "String", "A_b"⟩ : Step) := by
  have accepted : Schema.ofFields [⟨"n", .int⟩, ⟨"a\"b", .datetime⟩] =
      .ok ⟨[⟨"n", .int⟩, ⟨"a\"b", .datetime⟩], by decide⟩ := rfl
  refine ⟨_, accepted, ?_⟩
  intro c
  have hident : Field.ident ⟨"a\"b", .datetime⟩ = "A_b" := by decide
  have hnames : ∀ f ∈ c.fields, '\n' ∉ f.name.toList ∧ '\r' ∉ f.name.toList := by
    change ∀ f ∈ [(⟨"n", .int⟩ : Field), ⟨"a\"b", .datetime⟩], _
    decide
  obtain ⟨hexact, honly⟩ := recordSource_mirrors "T" c
  obtain ⟨p, hwritten, hmirrors⟩ := hexact.mpr hnames
  have hmember := hmirrors.member 1 ⟨"a\"b", .datetime⟩ rfl
  have hstep := hmirrors.step 1 ⟨"a\"b", .datetime⟩ rfl
  rw [hident] at hmember hstep
  exact ⟨p, hwritten, hmirrors, (honly p hwritten hmirrors).1, hmember, hstep⟩

/-- Fields with different identifiers, of which one has line feeds in its name. Its comment ends early, and
the structure has the member of the other field once more. -/
theorem recordSource_mirrors_broken :
    ∃ schema, Schema.ofFields [⟨"B", .int⟩, ⟨"a`\n    pub B: i64,\n    /// `c", .int⟩] = .ok schema ∧
      let c := Contract.compile "T" schema
      (¬∃ p : Program, p.Written "T" (recordSource "T" c) ∧ p.Mirrors c) ∧
      ∃ rest, recordSource "T" c =
        textOfLines (structureOpening "T" ++
          ["    /// `B` (int)", "    pub B: i64,", "    /// `a`", "    pub B: i64,", "    /// `c` (int)",
            "    pub A______pub_B__i64___________c: i64,", "\x7d"]) ++ rest := by
  have accepted : Schema.ofFields [⟨"B", .int⟩, ⟨"a`\n    pub B: i64,\n    /// `c", .int⟩] =
      .ok ⟨[⟨"B", .int⟩, ⟨"a`\n    pub B: i64,\n    /// `c", .int⟩], by decide⟩ := rfl
  refine ⟨_, accepted, ?_⟩
  intro c
  have hfields : c.fields = [⟨"B", .int⟩, ⟨"a`\n    pub B: i64,\n    /// `c", .int⟩] := rfl
  refine ⟨?_, ?_⟩
  · rintro ⟨p, hwritten, hmirrors⟩
    have hfeeds := hwritten.lineFeed_notMem hmirrors.members_length hmirrors.insertions_length
      hmirrors.steps_length
    rw [hfields] at hfeeds
    exact absurd hfeeds (by decide)
  · have hmembers : textOfLines (c.fields.map memberLines).flatten =
        textOfLines ["    /// `B` (int)", "    pub B: i64,", "    /// `a`", "    pub B: i64,",
          "    /// `c` (int)", "    pub A______pub_B__i64___________c: i64,"] := by
      rw [hfields]
      decide
    rw [recordSource_eq_layout, textOfLines_layout, hmembers]
    simp only [textOfLines_append, textOfLines_cons, textOfLines_nil, String.append_assoc,
      String.empty_append]
    exact ⟨_, rfl⟩

end ExtensionKit.Generated
