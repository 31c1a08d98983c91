import ExtensionKit.CommandLine
import ExtensionKit.Proofs.Manifest.Registration

/-!
# The type names of a manifest

The types that are generated for a manifest are in one name space, so the names that are given to them have to
be distinct. Names are made in several ways: an activity `xHandler` and a trigger `x` both want `XHandlerSettings`, and
names that differ in case or punctuation only want the same names throughout.

The list of all names can be told from the declarations (`Manifest.typeNames`), and what `render` does is
told by the first name of the list that repeats an earlier one (`Generated.FirstRepeated`) and the first
function that does not compile. `CommandLine.render_typeNames` says which of these is reported, and that the
source is printed exactly if there is none.
-/

namespace ExtensionKit

namespace Generated

/-! ## Repeated names -/

/-- A name, with the key of its artifact, is the first of a list that stands earlier in the list. -/
def FirstRepeated (names : List (String × Reference)) (name : String) (owner : Reference) : Prop :=
  ∃ before after, names = before ++ (name, owner) :: after ∧ (before.map Prod.fst).Nodup ∧
    name ∈ before.map Prod.fst

variable {names : List (String × Reference)} {name : String} {owner : Reference}

/-- The names of two lists clash in the first list, or in the second with those of the first. -/
theorem firstClash?_append (taken : List String) (names rest : List (String × Reference)) :
    firstClash? taken (names ++ rest) =
      (firstClash? taken names).or (firstClash? ((names.map Prod.fst).reverse ++ taken) rest) := by
  induction names generalizing taken with
  | nil => rfl
  | cons n names ih =>
    obtain ⟨name, owner⟩ := n
    rw [List.cons_append, firstClash?, firstClash?]
    split
    · rfl
    · rw [ih, List.map_cons, List.reverse_cons, List.append_assoc, List.singleton_append]

/-- Of the names that are taken only the membership matters. -/
theorem firstClash?_congr {taken taken' : List String} (h : ∀ name, name ∈ taken ↔ name ∈ taken')
    (names : List (String × Reference)) : firstClash? taken names = firstClash? taken' names := by
  induction names generalizing taken taken' with
  | nil => rfl
  | cons n names ih =>
    obtain ⟨name, owner⟩ := n
    have hcons : ∀ other, other ∈ name :: taken ↔ other ∈ name :: taken' := by
      intro other
      rw [List.mem_cons, List.mem_cons, h other]
    rw [firstClash?, firstClash?, ih hcons]
    by_cases hname : name ∈ taken
    · rw [if_pos hname, if_pos ((h name).mp hname)]
    · rw [if_neg hname, if_neg (mt (h name).mpr hname)]

/-- There is no clash exactly if the names are distinct and none is taken. -/
theorem firstClash?_eq_none_iff {taken : List String} :
    firstClash? taken names = none ↔
      (names.map Prod.fst).Nodup ∧ ∀ name ∈ names.map Prod.fst, name ∉ taken := by
  induction names generalizing taken with
  | nil => exact iff_of_true rfl ⟨List.nodup_nil, fun _ h => absurd h List.not_mem_nil⟩
  | cons n names ih =>
    obtain ⟨name, owner⟩ := n
    rw [firstClash?, List.map_cons, List.nodup_cons, List.forall_mem_cons]
    split
    · next htaken => exact iff_of_false nofun fun h => h.2.1 htaken
    · next hfree =>
      rw [ih]
      constructor
      · rintro ⟨nodup, hnew⟩
        refine ⟨⟨fun hmem => hnew name hmem (List.mem_cons_self ..), nodup⟩, hfree, ?_⟩
        exact fun other hother htaken => hnew other hother (List.mem_cons_of_mem _ htaken)
      · rintro ⟨⟨hnew, nodup⟩, -, hrest⟩
        refine ⟨nodup, fun other hother hmem => ?_⟩
        rcases List.mem_cons.mp hmem with rfl | htaken
        · exact hnew hother
        · exact hrest other hother htaken

theorem firstClash?_nil_eq_none_iff : firstClash? [] names = none ↔ (names.map Prod.fst).Nodup := by
  rw [firstClash?_eq_none_iff]
  exact and_iff_left fun _ _ => List.not_mem_nil

/-- The first name that repeats an earlier one is the clash that is reported. -/
theorem FirstRepeated.firstClash?_eq (h : FirstRepeated names name owner) :
    firstClash? [] names = some (name, owner) := by
  obtain ⟨before, after, rfl, nodup, hmem⟩ := h
  have htaken : name ∈ (before.map Prod.fst).reverse ++ [] := by
    rw [List.append_nil]
    exact List.mem_reverse.mpr hmem
  rw [firstClash?_append, firstClash?_nil_eq_none_iff.mpr nodup, Option.none_or, firstClash?,
    if_pos htaken]

/-- **The clash that is found is the first.** -/
theorem firstClash?_nil_eq_some_iff :
    firstClash? [] names = some (name, owner) ↔ FirstRepeated names name owner := by
  refine ⟨fun h => ?_, FirstRepeated.firstClash?_eq⟩
  rcases nodup_or_first_repeat Prod.fst names with
    nodup | ⟨before, ⟨name', owner'⟩, after, rfl, nodup, hrepeat⟩
  · rw [firstClash?_nil_eq_none_iff.mpr nodup] at h
    cases h
  · have hfirst : FirstRepeated (before ++ (name', owner') :: after) name' owner' :=
      ⟨before, after, rfl, nodup, List.mem_map.mpr hrepeat⟩
    rw [hfirst.firstClash?_eq] at h
    obtain ⟨rfl, rfl⟩ := Prod.mk.inj (Option.some.inj h)
    exact hfirst

/-- Names that are not distinct have a first that repeats an earlier one. -/
theorem exists_firstRepeated (h : ¬(names.map Prod.fst).Nodup) :
    ∃ name owner, FirstRepeated names name owner := by
  rcases hclash : firstClash? [] names with _ | ⟨name, owner⟩
  · exact absurd (firstClash?_nil_eq_none_iff.mp hclash) h
  · exact ⟨name, owner, firstClash?_nil_eq_some_iff.mp hclash⟩

/-- A search that goes on with more names is a search in all of them. -/
theorem firstClash?_continue (nodup : (names.map Prod.fst).Nodup) (rest : List (String × Reference)) :
    firstClash? (names.map Prod.fst) rest = firstClash? [] (names ++ rest) := by
  rw [firstClash?_append, firstClash?_nil_eq_none_iff.mpr nodup, Option.none_or]
  refine firstClash?_congr (fun other => ?_) rest
  rw [List.append_nil, List.mem_reverse]

/-! ## What is written for an artifact -/

/-- The names of the record types of an artifact, each with the key of the artifact. -/
def recordTypeNames (owner : Reference) (artifact : String) (records : List String) :
    List (String × Reference) :=
  records.map fun record => (Identifier.exported artifact ++ record, owner)

/-- The sections of an artifact with record types: a comment with its key, and a source for each type. -/
def recordTypeSections (owner : Reference) (artifact : String) (records : List (String × Schema)) :
    List String :=
  ("// " ++ owner.text) :: records.map fun (record, schema) =>
    recordSource (Identifier.exported artifact ++ record) (.compile record schema)

/-- The sections of a function: a comment with its key, and its source. -/
def functionTypeSections (d : FunctionDefinition) (s : Signature) : List String :=
  ["// " ++ (Reference.function d.category d.name).text, functionSource d.name d.category s]

theorem sections_append (parts rest : List Part) :
    sections (parts ++ rest) = sections parts ++ sections rest := List.flatMap_append

theorem sections_cons (p : Part) (rest : List Part) :
    sections (p :: rest) = ("// " ++ p.owner.text) :: p.types.map NamedSource.source ++ sections rest :=
  List.flatMap_cons

end Generated

/-! ## Functions and their signatures -/

namespace HostFunction

/-- The signatures are those of the declarations, one of each. -/
def HaveSignatures : List FunctionDefinition → List Signature → Prop :=
  List.Forall₂ fun d s => Signature.compile d.arguments d.result = .ok s

/-- The signatures of functions are those of the compiled functions. -/
theorem haveSignatures_iff {ds : List FunctionDefinition} {ss : List Signature} :
    HaveSignatures ds ss ↔ ∃ fs, AreCompiled ds fs ∧ fs.map signature = ss := by
  constructor
  · intro h
    induction h with
    | nil => exact ⟨[], .nil, rfl⟩
    | cons hs _ ih =>
      obtain ⟨fs, hfs, rfl⟩ := ih
      exact ⟨_ :: fs, .cons (compile_of_ok hs) hfs, rfl⟩
  · rintro ⟨fs, h, rfl⟩
    induction h with
    | nil => exact .nil
    | cons hf _ ih =>
      obtain ⟨s, hs, rfl⟩ := compile_eq_ok_iff.mp hf
      exact .cons hs ih

theorem exists_haveSignatures_iff {ds : List FunctionDefinition} :
    (∃ ss, HaveSignatures ds ss) ↔
      ∀ d ∈ ds, ∃ s, Signature.compile d.arguments d.result = .ok s := by
  constructor
  · rintro ⟨ss, h⟩ d hd
    induction h with
    | nil => cases hd
    | cons hs _ ih =>
      rcases List.mem_cons.mp hd with rfl | hd
      · exact ⟨_, hs⟩
      · exact ih hd
  · intro h
    obtain ⟨fs, hfs⟩ := exists_areCompiled fun d hd => exists_compile_eq_ok_iff.mpr (h d hd)
    exact ⟨_, haveSignatures_iff.mpr ⟨fs, hfs, rfl⟩⟩

variable {ds : List FunctionDefinition} {fs : List HostFunction}

/-- The names that functions claim can be told from their declarations. -/
theorem AreCompiled.claims_eq (h : AreCompiled ds fs) :
    Generated.claims (fs.map Generated.functionPart) =
      ds.map fun d => (Identifier.functionType d.name, Reference.function d.category d.name) := by
  induction h with
  | nil => rfl
  | cons hf _ ih =>
    obtain ⟨s, -, rfl⟩ := compile_eq_ok_iff.mp hf
    rw [List.map_cons, List.map_cons, ← ih]
    rfl

/-- What is printed for functions can be told from their declarations and signatures. -/
theorem AreCompiled.sections_eq (h : AreCompiled ds fs) :
    Generated.sections (fs.map Generated.functionPart) =
      (List.zipWith Generated.functionTypeSections ds (fs.map signature)).flatten := by
  induction h with
  | nil => rfl
  | cons hf _ ih =>
    obtain ⟨s, -, rfl⟩ := compile_eq_ok_iff.mp hf
    rw [List.map_cons, List.map_cons, List.zipWith_cons_cons, List.flatten_cons, ← ih,
      Generated.functionTypeSections, Generated.sections_cons, Generated.functionPart,
      HostFunction.reference, List.map_singleton]

end HostFunction

namespace Manifest

open Generated

/-! ## Names and sections of a manifest -/

/-- The names of the record types of the activities and the triggers, in order. -/
def recordNames (m : Manifest) : List (String × Reference) :=
  (m.activities.flatMap fun d =>
    recordTypeNames (.activity m.name d.name) d.name ["Settings", "Input", "Output"]) ++
  m.triggers.flatMap fun d =>
    recordTypeNames (.trigger m.name d.name) d.name ["Settings", "HandlerSettings", "Output"]

/-- The names of the types of the functions, in order. -/
def functionNames (m : Manifest) : List (String × Reference) :=
  m.functions.map fun d => (Identifier.functionType d.name, .function d.category d.name)

/-- The names of all types, in order. -/
def typeNames (m : Manifest) : List (String × Reference) := m.recordNames ++ m.functionNames

/-- The sections of the activities and the triggers, in order. -/
def recordSections (m : Manifest) : List String :=
  (m.activities.flatMap fun d =>
    recordTypeSections (.activity m.name d.name) d.name
      [("Settings", d.settings), ("Input", d.input), ("Output", d.output)]) ++
  m.triggers.flatMap fun d =>
    recordTypeSections (.trigger m.name d.name) d.name
      [("Settings", d.settings), ("HandlerSettings", d.handler), ("Output", d.output)]

/-- The sections of all artifacts, in order, with the signatures of the functions. -/
def typeSections (m : Manifest) (signatures : List Signature) : List String :=
  m.recordSections ++ (List.zipWith functionTypeSections m.functions signatures).flatten

theorem claims_recordParts (m : Manifest) : claims m.recordParts = m.recordNames := by
  rw [claims, recordParts, recordNames, List.flatMap_append, activityTypes, triggerTypes,
    List.map_map, List.map_map, List.flatMap_map, List.flatMap_map]
  rfl

theorem sections_recordParts (m : Manifest) : sections m.recordParts = m.recordSections := by
  rw [sections, recordParts, recordSections, List.flatMap_append, activityTypes, triggerTypes,
    List.map_map, List.map_map, List.flatMap_map, List.flatMap_map]
  rfl

/-! ## What becomes of a manifest -/

variable {m : Manifest} {name : String} {owner : Reference}

/-- A clash among records comes before all else. -/
theorem sourceSections_of_recordClash (clash : FirstRepeated m.recordNames name owner) :
    m.sourceSections = .error (.clash name owner) := by
  rw [sourceSections, claims_recordParts, clash.firstClash?_eq]

/-- A function that does not compile comes before a clash in which a function takes part. -/
theorem sourceSections_of_refused {e : SchemaError} (distinct : (m.recordNames.map Prod.fst).Nodup)
    (refused : HostFunction.FirstRefused m.functions e) : m.sourceSections = .error (.schema e) := by
  rw [sourceSections, claims_recordParts, firstClash?_nil_eq_none_iff.mpr distinct, hostFunctions,
    HostFunction.compileAll_eq_error_iff.mpr refused]

/-- Functions that compile leave the names of all types to be compared. -/
theorem sourceSections_of_areCompiled {fs : List HostFunction}
    (distinct : (m.recordNames.map Prod.fst).Nodup)
    (compiled : HostFunction.AreCompiled m.functions fs) :
    m.sourceSections = match firstClash? [] m.typeNames with
      | some (name, owner) => .error (.clash name owner)
      | none => .ok (m.typeSections (fs.map HostFunction.signature)) := by
  rw [sourceSections, claims_recordParts, firstClash?_nil_eq_none_iff.mpr distinct, hostFunctions,
    HostFunction.compileAll_eq_ok_iff.mpr compiled]
  dsimp only
  rw [compiled.claims_eq, firstClash?_continue distinct, typeSections, ← compiled.sections_eq,
    ← sections_recordParts, sections_append]
  rfl

/-- A name of a function that repeats an earlier one is reported last. -/
theorem sourceSections_of_clash {ss : List Signature} (distinct : (m.recordNames.map Prod.fst).Nodup)
    (signatures : HostFunction.HaveSignatures m.functions ss)
    (clash : FirstRepeated m.typeNames name owner) :
    m.sourceSections = .error (.clash name owner) := by
  obtain ⟨fs, compiled, -⟩ := HostFunction.haveSignatures_iff.mp signatures
  rw [sourceSections_of_areCompiled distinct compiled, clash.firstClash?_eq]

/-- Distinct names and functions that compile give the whole source. -/
theorem sourceSections_of_distinct {ss : List Signature} (distinct : (m.typeNames.map Prod.fst).Nodup)
    (signatures : HostFunction.HaveSignatures m.functions ss) :
    m.sourceSections = .ok (m.typeSections ss) := by
  obtain ⟨fs, compiled, rfl⟩ := HostFunction.haveSignatures_iff.mp signatures
  have hrecords : (m.recordNames.map Prod.fst).Nodup := by
    rw [typeNames, List.map_append] at distinct
    exact distinct.of_append_left
  rw [sourceSections_of_areCompiled hrecords compiled, firstClash?_nil_eq_none_iff.mpr distinct]

/-- One of these holds of every manifest: records clash, a function does not compile, types clash, or none of
all that. -/
theorem clash_or_refused_or_distinct (m : Manifest) :
    (∃ name owner, FirstRepeated m.recordNames name owner) ∨
      (m.recordNames.map Prod.fst).Nodup ∧ ((∃ e, HostFunction.FirstRefused m.functions e) ∨
        ∃ ss, HostFunction.HaveSignatures m.functions ss ∧
          ((∃ name owner, FirstRepeated m.typeNames name owner) ∨ (m.typeNames.map Prod.fst).Nodup)) := by
  by_cases hrecords : (m.recordNames.map Prod.fst).Nodup
  · refine .inr ⟨hrecords, ?_⟩
    rcases HostFunction.areCompiled_or_firstRefused m.functions with ⟨fs, compiled⟩ | refused
    · refine .inr ⟨_, HostFunction.haveSignatures_iff.mpr ⟨fs, compiled, rfl⟩, ?_⟩
      by_cases htypes : (m.typeNames.map Prod.fst).Nodup
      · exact .inr htypes
      · exact .inl (exists_firstRepeated htypes)
    · exact .inl refused
  · exact .inl (exists_firstRepeated hrecords)

end Manifest

/-! ## The main statement -/

namespace CommandLine

open Generated HostFunction

/-- The report of a clash. -/
def clashReport (name : String) (owner : Reference) : Report := ⟨(SourceFault.clash name owner).message, []⟩

theorem render_of_error {m : Manifest} {e : SourceFault} (h : m.sourceSections = .error e) :
    render m = .error ⟨e.message, []⟩ := by
  rw [render, h]

theorem render_of_ok {m : Manifest} {parts : List String} (h : m.sourceSections = .ok parts) :
    render m = .ok ("\n".intercalate parts ++ "\n") := by
  rw [render, h]

/-- What is printed. -/
theorem render_eq_ok_iff {m : Manifest} {text : String} :
    render m = .ok text ↔ (m.typeNames.map Prod.fst).Nodup ∧
      ∃ ss, HaveSignatures m.functions ss ∧
        text = "\n".intercalate (m.typeSections ss) ++ "\n" := by
  constructor
  · intro h
    rcases m.clash_or_refused_or_distinct with ⟨name, owner, clash⟩ | ⟨hrecords,
      ⟨e, refused⟩ | ⟨ss, signatures, ⟨name, owner, clash⟩ | distinct⟩⟩
    · rw [render_of_error (Manifest.sourceSections_of_recordClash clash)] at h
      cases h
    · rw [render_of_error (Manifest.sourceSections_of_refused hrecords refused)] at h
      cases h
    · rw [render_of_error (Manifest.sourceSections_of_clash hrecords signatures clash)] at h
      cases h
    · rw [render_of_ok (Manifest.sourceSections_of_distinct distinct signatures)] at h
      exact ⟨distinct, ss, signatures, (Except.ok.inj h).symm⟩
  · rintro ⟨distinct, ss, signatures, rfl⟩
    exact render_of_ok (Manifest.sourceSections_of_distinct distinct signatures)

/-- What is reported. -/
theorem render_eq_error_iff {m : Manifest} {report : Report} :
    render m = .error report ↔
      (∃ name owner, FirstRepeated m.recordNames name owner ∧ report = clashReport name owner) ∨
      (m.recordNames.map Prod.fst).Nodup ∧
        ((∃ e, FirstRefused m.functions e ∧ report = ⟨e.message, []⟩) ∨
          (∃ ss, HaveSignatures m.functions ss) ∧
            ∃ name owner, FirstRepeated m.typeNames name owner ∧ report = clashReport name owner) := by
  constructor
  · intro h
    rcases m.clash_or_refused_or_distinct with ⟨name, owner, clash⟩ | ⟨hrecords,
      ⟨e, refused⟩ | ⟨ss, signatures, ⟨name, owner, clash⟩ | distinct⟩⟩
    · rw [render_of_error (Manifest.sourceSections_of_recordClash clash)] at h
      exact .inl ⟨name, owner, clash, (Except.error.inj h).symm⟩
    · rw [render_of_error (Manifest.sourceSections_of_refused hrecords refused)] at h
      exact .inr ⟨hrecords, .inl ⟨e, refused, (Except.error.inj h).symm⟩⟩
    · rw [render_of_error (Manifest.sourceSections_of_clash hrecords signatures clash)] at h
      exact .inr ⟨hrecords, .inr ⟨⟨ss, signatures⟩, name, owner, clash, (Except.error.inj h).symm⟩⟩
    · rw [render_of_ok (Manifest.sourceSections_of_distinct distinct signatures)] at h
      cases h
  · rintro (⟨name, owner, clash, rfl⟩ | ⟨hrecords,
      ⟨e, refused, rfl⟩ | ⟨⟨ss, signatures⟩, name, owner, clash, rfl⟩⟩)
    · exact render_of_error (Manifest.sourceSections_of_recordClash clash)
    · exact render_of_error (Manifest.sourceSections_of_refused hrecords refused)
    · exact render_of_error (Manifest.sourceSections_of_clash hrecords signatures clash)

/-- A call prints nothing exactly if it fails. -/
theorem stdout_render_eq_empty_iff {m : Manifest} :
    (Outcome.ofResult (render m)).stdout = "" ↔ ∃ report, render m = .error report := by
  rcases h : render m with report | text
  · exact iff_of_true rfl ⟨report, rfl⟩
  · obtain ⟨-, ss, -, rfl⟩ := render_eq_ok_iff.mp h
    refine iff_of_false (fun hempty => ?_) nofun
    have hend : ("\n".intercalate (m.typeSections ss) ++ "\n").toList = "".toList :=
      congrArg String.toList hempty
    rw [String.toList_append] at hend
    exact List.append_ne_nil_of_right_ne_nil _ (List.cons_ne_nil '\n' []) hend

/-- **No two types are given one name.** The source of a manifest is printed exactly if the names of all types
are distinct and the arguments of every function compile. Then each artifact has a comment with its key, and
after it the source of each of its types, under its name, all in the order of the names. This is about the
text that is printed. A key goes into its comment as it is, and so do the names of fields and arguments, so
that only names without line feeds make comments that end where they should.

Otherwise nothing is printed, and what is reported is

* the first name of a record type that repeats an earlier one, with the key of its artifact, if there is
  such a name;
* else the error of the first function that does not compile, if there is one;
* else the first name of all that repeats an earlier one, which is that of a function, with its key. -/
theorem render_typeNames (m : Manifest) :
    ((∃ text, render m = .ok text) ↔ (m.typeNames.map Prod.fst).Nodup ∧
      ∀ d ∈ m.functions, ∃ s, Signature.compile d.arguments d.result = .ok s) ∧
    (∀ text, render m = .ok text ↔ (m.typeNames.map Prod.fst).Nodup ∧
      ∃ ss, HaveSignatures m.functions ss ∧
        text = "\n".intercalate (m.typeSections ss) ++ "\n") ∧
    (∀ report, render m = .error report ↔
      (∃ name owner, FirstRepeated m.recordNames name owner ∧ report = clashReport name owner) ∨
      (m.recordNames.map Prod.fst).Nodup ∧
        ((∃ e, FirstRefused m.functions e ∧ report = ⟨e.message, []⟩) ∨
          (∀ d ∈ m.functions, ∃ s, Signature.compile d.arguments d.result = .ok s) ∧
            ∃ name owner, FirstRepeated m.typeNames name owner ∧ report = clashReport name owner)) ∧
    ((Outcome.ofResult (render m)).stdout = "" ↔ ∃ report, render m = .error report) := by
  refine ⟨?_, fun text => render_eq_ok_iff, fun report => ?_, stdout_render_eq_empty_iff⟩
  · rw [← exists_haveSignatures_iff]
    constructor
    · rintro ⟨text, h⟩
      obtain ⟨distinct, ss, signatures, -⟩ := render_eq_ok_iff.mp h
      exact ⟨distinct, ss, signatures⟩
    · rintro ⟨distinct, ss, signatures⟩
      exact ⟨_, render_eq_ok_iff.mpr ⟨distinct, ss, signatures, rfl⟩⟩
  · rw [← exists_haveSignatures_iff]
    exact render_eq_error_iff

/-- An activity and a trigger with different names can want one type name. The clash is reported although
a function does not compile. -/
theorem render_typeNames_acrossKinds :
    let m : Manifest := ⟨"net", [⟨"xHandler", .empty, .empty, .empty⟩], [⟨"x", .empty, .empty, .empty⟩],
      [⟨"f", "c", [⟨"a", .int⟩, ⟨"a", .int⟩], .int⟩]⟩
    (∃ e, FirstRefused m.functions e) ∧
      render m = .error (clashReport "XHandlerSettings" (.trigger "net" "x")) := by
  intro m
  have refused : FirstRefused m.functions (.duplicate "a" 1) := ⟨[], _, [], rfl, nofun, rfl⟩
  have clash : FirstRepeated m.recordNames "XHandlerSettings" (.trigger "net" "x") :=
    ⟨m.recordNames.take 4, m.recordNames.drop 5, by decide, by decide, by decide⟩
  exact ⟨⟨_, refused⟩, ((render_typeNames m).2.2.1 _).mpr (.inl ⟨_, _, clash, rfl⟩)⟩

end CommandLine

end ExtensionKit
