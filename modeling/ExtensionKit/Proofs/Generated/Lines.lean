import ExtensionKit.Generated.FunctionSource
import ExtensionKit.Generated.RecordSource
import ExtensionKit.Proofs.Generated.Identifiers
import ExtensionKit.Proofs.Text.Numeral

/-!
# The lines of generated source

How many line feeds there are in generated source. A template has a fixed number of lines for each field
or argument. Literals and identifiers never add one, since they write a line feed in other characters. But
a declared name also stands as it is: in two comments for each field of a record, in one comment for each
argument that is coerced, and in the message at the start of a function. There every line feed of the name
is one of the source, and what stands after it is outside the comment.

The counts are exact (`lineFeeds_recordSource`, `lineFeeds_functionSource`), so they also say when two
sources have the same number of lines.
-/

namespace ExtensionKit.Generated

/-- The number of line feeds in a text. -/
@[irreducible] def lineFeeds (s : String) : Nat := s.toList.count '\n'

@[simp] theorem lineFeeds_append (s t : String) :
    lineFeeds (s ++ t) = lineFeeds s + lineFeeds t := by
  simp only [lineFeeds, String.toList_append, List.count_append]

@[simp] theorem lineFeeds_of_notMem {s : String} (h : '\n' ∉ s.toList) : lineFeeds s = 0 := by
  rw [lineFeeds, List.count_eq_zero.mpr h]

theorem lineFeeds_ofList {cs : List Char} (h : '\n' ∉ cs) : lineFeeds (String.ofList cs) = 0 :=
  lineFeeds_of_notMem (by rwa [String.toList_ofList])

/-- The number of line feeds in the text of some lines. -/
def textLength : List String → Nat
  | [] => 0
  | line :: lines => lineFeeds line + 1 + textLength lines

/-- The text of lines has their line feeds and one at the end of each. -/
theorem lineFeeds_textOfLines (lines : List String) :
    lineFeeds (textOfLines lines) = textLength lines := by
  induction lines with
  | nil => exact lineFeeds_of_notMem List.not_mem_nil
  | cons line lines ih =>
    have hfeed : lineFeeds "\n" = 1 := by
      rw [lineFeeds]
      rfl
    rw [textOfLines_cons, lineFeeds_append, lineFeeds_append, ih, hfeed, textLength, Nat.add_assoc]

@[simp] theorem textLength_nil : textLength [] = 0 := rfl

@[simp] theorem textLength_cons (line : String) (lines : List String) :
    textLength (line :: lines) = lineFeeds line + 1 + textLength lines := by
  rw [textLength]

@[simp] theorem textLength_append (lines more : List String) :
    textLength (lines ++ more) = textLength lines + textLength more := by
  induction lines with
  | nil => exact (Nat.zero_add _).symm
  | cons line lines ih =>
    rw [List.cons_append, textLength_cons, textLength_cons, ih]
    omega

theorem length_le_textLength (lines : List String) : lines.length ≤ textLength lines := by
  induction lines with
  | nil => exact Nat.le_refl 0
  | cons line lines ih =>
    rw [textLength_cons, List.length_cons]
    omega

/-- A text without line feeds has none of them to count, and no other text has. -/
theorem lineFeeds_eq_zero_iff {s : String} : lineFeeds s = 0 ↔ '\n' ∉ s.toList := by
  rw [lineFeeds, List.count_eq_zero]

/-- Lines are whole if there are no line feeds but those at their ends. -/
theorem textLength_eq_length_iff {lines : List String} :
    textLength lines = lines.length ↔ ∀ line ∈ lines, '\n' ∉ line.toList := by
  induction lines with
  | nil => exact ⟨nofun, fun _ => rfl⟩
  | cons line lines ih =>
    have hle : lines.length ≤ textLength lines := length_le_textLength lines
    rw [textLength_cons, List.length_cons, List.forall_mem_cons, ← ih, ← lineFeeds_eq_zero_iff]
    omega

/-! ## What never holds a line feed -/

theorem lineFeed_notMem_hexadecimal (n : Nat) : '\n' ∉ Text.hexadecimal n := by
  have hdigit : ∀ d < 16, Text.hexDigit d ≠ '\n' := by decide
  fun_induction Text.hexadecimal n with
  | case1 n h => exact fun hmem => hdigit n h (List.mem_singleton.mp hmem).symm
  | case2 n h ih =>
    intro hmem
    rcases List.mem_append.mp hmem with hmem | hmem
    · exact ih hmem
    · exact hdigit _ (Nat.mod_lt n (by decide)) (List.mem_singleton.mp hmem).symm

/-- A character is escaped without a line feed. -/
theorem lineFeed_notMem_escape (c : Char) : '\n' ∉ Text.Literal.escape c := by
  by_cases hfeed : c = '\n'
  · subst hfeed
    decide
  · rw [Text.Literal.escape]
    iterate 5 (split; · decide)
    split
    · simp [lineFeed_notMem_hexadecimal]
    · exact fun hmem => hfeed (List.mem_singleton.mp hmem).symm

/-- **A literal escapes line feeds.** -/
@[simp] theorem lineFeeds_quote (s : String) : lineFeeds (Text.Literal.quote s) = 0 := by
  refine lineFeeds_ofList ?_
  simp [Text.Literal.encode, lineFeed_notMem_escape]

@[simp] theorem lineFeeds_positionText (n : Nat) : lineFeeds (positionText n) = 0 := by
  refine lineFeeds_ofList fun h => ?_
  exact absurd (Text.isDigit_of_mem_decimal h) (by decide)

/-- No identifier holds a line feed. -/
theorem lineFeed_notMem_sanitize (name : List Char) : '\n' ∉ Identifier.sanitize name := by
  have hstem : '\n' ∉ Identifier.stem name :=
    fun h => absurd (Identifier.isWordCharacter_of_mem_stem h) (by decide)
  rw [Identifier.sanitize_eq, Identifier.guardKeyword]
  repeat' split
  · simp [hstem]
  · simp [hstem]
  · exact hstem

@[simp] theorem lineFeeds_exported (name : String) : lineFeeds (Identifier.exported name) = 0 :=
  lineFeeds_ofList (lineFeed_notMem_sanitize _)

@[simp] theorem lineFeeds_ident (f : Field) : lineFeeds f.ident = 0 := lineFeeds_exported f.name

@[simp] theorem lineFeeds_argument (name : String) : lineFeeds (Identifier.argument name) = 0 := by
  rw [Identifier.argument]
  split
  · exact lineFeeds_ofList (by decide)
  · exact lineFeeds_ofList (lineFeed_notMem_sanitize _)

@[simp] theorem lineFeeds_functionType (name : String) :
    lineFeeds (Identifier.functionType name) = 0 := by
  simp (disch := (rw [String.toList_ofList]; decide)) [Identifier.functionType]

@[simp] theorem lineFeeds_typeName (t : FieldType) : lineFeeds t.name = 0 := by
  cases t <;> exact lineFeeds_ofList (by decide)

@[simp] theorem lineFeeds_placeholderSource (t : FieldType) : lineFeeds t.placeholderSource = 0 := by
  cases t <;> exact lineFeeds_ofList (by decide)

@[simp] theorem lineFeeds_sourceType (r : Representation) : lineFeeds r.sourceType = 0 := by
  cases r <;> exact lineFeeds_ofList (by decide)

@[simp] theorem lineFeeds_variant (r : Representation) : lineFeeds r.variant = 0 := by
  cases r <;> exact lineFeeds_ofList (by decide)

@[simp] theorem lineFeeds_coercionName (c : Coercion) : lineFeeds c.name = 0 := by
  cases c <;> exact lineFeeds_ofList (by decide)

theorem lineFeeds_intercalate {separator : String} {texts : List String}
    (hseparator : lineFeeds separator = 0) (htexts : ∀ t ∈ texts, lineFeeds t = 0) :
    lineFeeds (separator.intercalate texts) = 0 := by
  induction texts with
  | nil =>
    rw [String.intercalate_nil]
    exact lineFeeds_ofList (by decide)
  | cons t texts ih =>
    have ht := htexts t (List.mem_cons_self ..)
    cases texts with
    | nil => simpa using ht
    | cons u texts =>
      rw [String.intercalate_cons_cons, lineFeeds_append, lineFeeds_append, ht, hseparator,
        ih fun v hv => htexts v (List.mem_cons_of_mem t hv)]

/-! ## Records -/

/-- The number of line feeds in the names of some fields. -/
def nameFeeds : List Field → Nat
  | [] => 0
  | f :: fields => lineFeeds f.name + nameFeeds fields

theorem nameFeeds_cons (f : Field) (fields : List Field) :
    nameFeeds (f :: fields) = lineFeeds f.name + nameFeeds fields := by
  rw [nameFeeds]

theorem nameFeeds_append (fields more : List Field) :
    nameFeeds (fields ++ more) = nameFeeds fields + nameFeeds more := by
  induction fields with
  | nil => exact (Nat.zero_add _).symm
  | cons f fields ih => rw [List.cons_append, nameFeeds_cons, nameFeeds_cons, ih, Nat.add_assoc]

/-- There is no line feed in the names of fields exactly if no name holds one. -/
theorem nameFeeds_eq_zero_iff {fields : List Field} :
    nameFeeds fields = 0 ↔ ∀ f ∈ fields, '\n' ∉ f.name.toList := by
  induction fields with
  | nil => exact ⟨nofun, fun _ => rfl⟩
  | cons f fields ih =>
    rw [nameFeeds_cons, Nat.add_eq_zero_iff, ih, lineFeeds_eq_zero_iff, List.forall_mem_cons]

/-- The number of lines of a record type with some number of fields. -/
def recordLength (size : Nat) : Nat := 18 + (if size = 0 then 0 else 1) + 11 * size

/-- The declaration of a member has the declared name in its comment. -/
theorem textLength_memberLines (f : Field) : textLength (memberLines f) = lineFeeds f.name + 2 := by
  simp (disch := (rw [String.toList_ofList]; decide)) [memberLines]

/-- The statement that writes a member has the declared name in a literal only. -/
theorem lineFeeds_insertLine (f : Field) : lineFeeds (insertLine f) = 0 := by
  unfold insertLine
  simp (disch := (rw [String.toList_ofList]; decide))

/-- The statements that read a member have the declared name in a comment once. -/
theorem textLength_fillLines (index : Nat) (f : Field) :
    textLength (fillLines index f) = lineFeeds f.name + 8 := by
  simp (disch := (rw [String.toList_ofList]; decide)) [fillLines]

theorem textLength_flatMap_memberLines (fields : List Field) :
    textLength (fields.flatMap memberLines) = nameFeeds fields + 2 * fields.length := by
  induction fields with
  | nil => rfl
  | cons f fields ih =>
    rw [List.flatMap_cons, textLength_append, ih, textLength_memberLines, nameFeeds_cons, List.length_cons]
    omega

theorem textLength_map_insertLine (fields : List Field) :
    textLength (fields.map insertLine) = fields.length := by
  induction fields with
  | nil => rfl
  | cons f fields ih =>
    rw [List.map_cons, textLength_cons, ih, lineFeeds_insertLine, List.length_cons]
    omega

theorem textLength_fillAllLines (index : Nat) (fields : List Field) :
    textLength (fillAllLines index fields) = nameFeeds fields + 8 * fields.length := by
  induction fields generalizing index with
  | nil => rfl
  | cons f fields ih =>
    rw [fillAllLines, textLength_append, ih, textLength_fillLines, nameFeeds_cons, List.length_cons]
    omega

theorem textLength_structureLines (typeName : String) (fields : List Field) :
    textLength (structureLines typeName fields) =
      lineFeeds typeName + nameFeeds fields + 2 * fields.length + 4 := by
  simp (disch := (rw [String.toList_ofList]; decide)) [structureLines, textLength_flatMap_memberLines]
  omega

theorem textLength_toMapLines (fields : List Field) :
    textLength (toMapLines fields) = fields.length + 4 := by
  simp (disch := (rw [String.toList_ofList]; decide)) [toMapLines, textLength_map_insertLine]
  omega

/-- The filling has a line for the absent value if there is a field. -/
theorem textLength_fromMapLines (fields : List Field) :
    textLength (fromMapLines fields) =
      nameFeeds fields + 8 * fields.length + 6 + if fields = [] then 0 else 1 := by
  cases fields with
  | nil => simp (disch := (rw [String.toList_ofList]; decide)) [fromMapLines, fillAllLines, nameFeeds]
  | cons f fields =>
    simp (disch := (rw [String.toList_ofList]; decide)) [fromMapLines, textLength_fillAllLines]
    omega

/-- **The lines of a record type.** The name of each field adds its line feeds twice, in the comment on
the member and in the comment where it is read. -/
theorem lineFeeds_recordSource (typeName : String) (c : Contract) :
    lineFeeds (recordSource typeName c) =
      recordLength c.size + 2 * lineFeeds typeName + 2 * nameFeeds c.fields := by
  rw [recordSource, lineFeeds_textOfLines, recordLines, recordLength, Contract.size]
  simp (disch := (rw [String.toList_ofList]; decide))
    [textLength_structureLines, textLength_toMapLines, textLength_fromMapLines]
  omega

/-! ## Functions -/

/-- The fields that have a comment with their name when they are taken as arguments: those that are not
simply copied. -/
def commented (fields : List Field) : List Field :=
  fields.filter fun f => f.type.argumentCoercion.target ≠ .any

/-- The number of lines that take an argument of a type. -/
def argumentLength (t : FieldType) : Nat := if t.argumentCoercion.target = .any then 2 else 14

/-- The number of lines that take arguments of some types. -/
def argumentsLength : List FieldType → Nat
  | [] => 0
  | t :: types => argumentLength t + argumentsLength types

/-- The number of lines of a function with arguments of some types. -/
def functionLength (types : List FieldType) : Nat :=
  32 + (if types = [] then 0 else 1) + argumentsLength types

/-- The name of an argument stands in a comment, unless the argument is copied. -/
theorem textLength_argumentLines (index : Nat) (f : Field) :
    textLength (argumentLines index f) = nameFeeds (commented [f]) + argumentLength f.type := by
  by_cases h : f.type.argumentCoercion.target = .any
  · have hnone : commented [f] = [] := by simp [commented, h]
    rw [hnone, argumentLength, if_pos h, argumentLines, if_pos h]
    simp (disch := (rw [String.toList_ofList]; decide)) [nameFeeds]
  · have hone : commented [f] = [f] := by simp [commented, h]
    rw [hone, argumentLength, if_neg h, argumentLines, if_neg h]
    simp (disch := (rw [String.toList_ofList]; decide)) [nameFeeds]
    omega

theorem textLength_argumentsLines (index : Nat) (fields : List Field) :
    textLength (argumentsLines index fields) =
      nameFeeds (commented fields) + argumentsLength (fields.map Field.type) := by
  induction fields generalizing index with
  | nil => rfl
  | cons f fields ih =>
    have hnames : nameFeeds (commented (f :: fields)) =
        nameFeeds (commented [f]) + nameFeeds (commented fields) := by
      rw [← List.singleton_append, commented, List.filter_append, nameFeeds_append]
      rfl
    rw [argumentsLines, textLength_append, ih, textLength_argumentLines, hnames, List.map_cons,
      argumentsLength]
    omega

theorem textLength_literalMethodLines (method text : String) (h : lineFeeds method = 0) :
    textLength (literalMethodLines method text) = 4 := by
  simp (disch := (rw [String.toList_ofList]; decide)) [literalMethodLines, h]

theorem textLength_signatureLines (s : Signature) : textLength (signatureLines s) = 4 := by
  have htypes : lineFeeds (", ".intercalate (s.representations.map fun r =>
      "flowgen_core::RepresentationType::" ++ r.variant)) = 0 := by
    refine lineFeeds_intercalate (lineFeeds_ofList (by decide)) fun t ht => ?_
    obtain ⟨r, -, rfl⟩ := List.mem_map.mp ht
    simp (disch := (rw [String.toList_ofList]; decide))
  simp (disch := (rw [String.toList_ofList]; decide)) [signatureLines, htypes]

theorem textLength_prologueLines (name : String) (arity : Nat) :
    textLength (prologueLines name arity) = lineFeeds name + 12 := by
  simp (disch := (rw [String.toList_ofList]; decide)) [prologueLines]
  omega

/-- There is a line that uses the arguments, if there are any. -/
theorem textLength_useLines (s : Signature) :
    textLength (useLines (argumentVariables s)) = if s.parameters.fields = [] then 0 else 1 := by
  have hidents : lineFeeds (", ".intercalate (argumentVariables s)) = 0 := by
    refine lineFeeds_intercalate (lineFeeds_ofList (by decide)) fun ident hident => ?_
    obtain ⟨f, -, rfl⟩ := List.mem_map.mp hident
    exact lineFeeds_argument f.name
  rw [useLines]
  simp only [argumentVariables, List.map_eq_nil_iff] at hidents ⊢
  split
  · rfl
  · simp (disch := (rw [String.toList_ofList]; decide)) [hidents]

theorem textLength_epilogueLines (result : FieldType) : textLength (epilogueLines result) = 5 := by
  simp (disch := (rw [String.toList_ofList]; decide)) [epilogueLines]

/-- **The lines of a function.** Its name adds its line feeds once, in the message at the start, and the
name of each argument that is coerced adds its own once, in the comment before it. -/
theorem lineFeeds_functionSource (name category : String) (s : Signature) :
    lineFeeds (functionSource name category s) =
      functionLength (s.parameters.fields.map Field.type) + lineFeeds name +
        nameFeeds (commented s.parameters.fields) := by
  have hname : textLength (literalMethodLines "name" name) = 4 :=
    textLength_literalMethodLines _ _ (lineFeeds_ofList (by decide))
  have hcategory : textLength (literalMethodLines "category" category) = 4 :=
    textLength_literalMethodLines _ _ (lineFeeds_ofList (by decide))
  rw [functionSource, lineFeeds_textOfLines, functionLines, functionLength]
  simp (disch := (rw [String.toList_ofList]; decide))
    [hname, hcategory, textLength_signatureLines, textLength_prologueLines, textLength_argumentsLines,
      textLength_useLines, textLength_epilogueLines]
  omega

/-! ## Equal numbers of lines -/

/-- **When two sources have the same number of lines.**

* Two record types with as many fields, under type names without line feeds, have the same number of
  lines exactly if there are as many line feeds in the names of their fields.
* Two functions with arguments of the same types have the same number of lines exactly if there are as
  many line feeds in their names and those of their arguments, of which the ones that are copied do not
  count. The categories do not matter.

In particular, names without line feeds never change the number of lines. -/
theorem lineFeeds_source_eq_iff (typeName typeName' : String) (c c' : Contract)
    (name name' category category' : String) (s s' : Signature) :
    ('\n' ∉ typeName.toList → '\n' ∉ typeName'.toList → c.size = c'.size →
      (lineFeeds (recordSource typeName c) = lineFeeds (recordSource typeName' c') ↔
        nameFeeds c.fields = nameFeeds c'.fields)) ∧
    (s.parameters.fields.map Field.type = s'.parameters.fields.map Field.type →
      (lineFeeds (functionSource name category s) = lineFeeds (functionSource name' category' s') ↔
        lineFeeds name + nameFeeds (commented s.parameters.fields) =
          lineFeeds name' + nameFeeds (commented s'.parameters.fields))) := by
  constructor
  · intro hname hname' hsize
    rw [lineFeeds_recordSource, lineFeeds_recordSource, lineFeeds_of_notMem hname,
      lineFeeds_of_notMem hname', hsize]
    omega
  · intro htypes
    rw [lineFeeds_functionSource, lineFeeds_functionSource, htypes]
    omega

/-- Names that need escapes make no difference if they have no line feed. -/
theorem lineFeeds_source_quotes :
    ∃ s s' : Schema, s.fields = [⟨"a", .int⟩] ∧ s'.fields = [⟨"\"\t", .int⟩] ∧
      lineFeeds (recordSource "T" (.compile "T" s)) =
        lineFeeds (recordSource "T" (.compile "T" s')) ∧
      lineFeeds (functionSource "f" "c" ⟨s, .int⟩) =
        lineFeeds (functionSource "\\" "d" ⟨s', .string⟩) := by
  let s : Schema := ⟨[⟨"a", .int⟩], by decide⟩
  let s' : Schema := ⟨[⟨"\"\t", .int⟩], by decide⟩
  have hnames : nameFeeds s.fields = nameFeeds s'.fields := by
    rw [nameFeeds_cons, nameFeeds_cons, lineFeeds_of_notMem (by decide),
      lineFeeds_of_notMem (by decide)]
  have hfunctions : lineFeeds "f" = lineFeeds "\\" := by
    rw [lineFeeds_of_notMem (by decide), lineFeeds_of_notMem (by decide)]
  have hlines := lineFeeds_source_eq_iff "T" "T" (.compile "T" s) (.compile "T" s') "f" "\\" "c" "d"
    ⟨s, .int⟩ ⟨s', .string⟩
  refine ⟨s, s', rfl, rfl, ?_, ?_⟩
  · exact (hlines.1 (by decide) (by decide) rfl).mpr hnames
  · refine (hlines.2 rfl).mpr ?_
    change _ + nameFeeds s.fields = _ + nameFeeds s'.fields
    rw [hfunctions, hnames]

/-- A line feed in the name of a field is two more lines of the record, and one in the name of an argument
or of a function is one more line of the function. -/
theorem lineFeeds_source_added :
    ∃ s s' : Schema, s.fields = [⟨"a\nb", .int⟩] ∧ s'.fields = [⟨"ab", .int⟩] ∧
      lineFeeds (recordSource "T" (.compile "T" s)) =
        lineFeeds (recordSource "T" (.compile "T" s')) + 2 ∧
      lineFeeds (functionSource "f" "c" ⟨s, .int⟩) =
        lineFeeds (functionSource "f" "c" ⟨s', .int⟩) + 1 ∧
      lineFeeds (functionSource "f\ng" "c" ⟨s', .int⟩) =
        lineFeeds (functionSource "fg" "c" ⟨s', .int⟩) + 1 := by
  let s : Schema := ⟨[⟨"a\nb", .int⟩], by decide⟩
  let s' : Schema := ⟨[⟨"ab", .int⟩], by decide⟩
  have hbroken : nameFeeds s.fields = 1 := by
    rw [nameFeeds_cons, lineFeeds]
    rfl
  have hwhole : nameFeeds s'.fields = 0 := by
    rw [nameFeeds_cons, lineFeeds]
    rfl
  have hname : lineFeeds "f\ng" = lineFeeds "fg" + 1 := by
    rw [lineFeeds, lineFeeds]
    rfl
  refine ⟨s, s', rfl, rfl, ?_, ?_, ?_⟩
  · rw [lineFeeds_recordSource, lineFeeds_recordSource]
    change _ + _ + 2 * nameFeeds s.fields = _ + _ + 2 * nameFeeds s'.fields + 2
    rw [hbroken, hwhole]
    rfl
  · rw [lineFeeds_functionSource, lineFeeds_functionSource]
    change _ + _ + nameFeeds s.fields = _ + _ + nameFeeds s'.fields + 1
    rw [hbroken, hwhole]
    rfl
  · rw [lineFeeds_functionSource, lineFeeds_functionSource, hname]
    omega

end ExtensionKit.Generated
