import ExtensionKit.Proofs.Generated.Lines
import ExtensionKit.Proofs.List.Front

/-!
# The layout of record types

The source of a record type has three runs of blocks: two lines for each member, one line for each
insertion into the map, and eight lines for the filling of each member. What stands around them is the same
for all record types, but for the type name (`layout`).

A block is whole if none of its lines holds a line feed. Text that is laid out in whole blocks can be taken
apart in one way only (`layout_inj`), and the number of its lines is that of its blocks
(`lineFeeds_layout`). The source of every record type is laid out so, but its blocks are whole only if no
declared name holds a line feed.
-/

namespace ExtensionKit.Generated

/-- A block of some number of lines, all of them whole, where it can be told from the line that comes after
the last block. -/
structure IsBlock (size : Nat) (stop : String) (lines : List String) : Prop where
  /-- the number of lines -/
  length : lines.length = size
  /-- no line holds a line feed -/
  whole : ∀ line ∈ lines, '\n' ∉ line.toList
  /-- the first line is another than the one that comes after the last block -/
  start : ∀ line rest, lines = line :: rest → line ≠ stop

/-! ## Reading blocks -/

variable {line line' stop s s' : String} {lines lines' : List String} {blocks blocks' : List (List String)}

/-- A text that holds no mark ends where the mark stands. -/
theorem delimited_inj {mark : String} {c : Char} {cs : List Char} (hmark : mark.toList = c :: cs)
    (h : c ∉ line.toList) (h' : c ∉ line'.toList) (heq : line ++ (mark ++ s) = line' ++ (mark ++ s')) :
    line = line' ∧ s = s' := by
  have hchars := congrArg String.toList heq
  simp only [String.toList_append, hmark, List.cons_append] at hchars
  obtain ⟨hline, hrest⟩ := append_cons_inj h h' hchars
  exact ⟨String.toList_inj.mp hline, String.toList_inj.mp (List.append_cancel_left hrest)⟩

/-- A line ends at the first line feed. -/
theorem line_inj (h : '\n' ∉ line.toList) (h' : '\n' ∉ line'.toList)
    (heq : line ++ ("\n" ++ s) = line' ++ ("\n" ++ s')) : line = line' ∧ s = s' :=
  delimited_inj rfl h h' heq

/-- As many whole lines at the start of the same text are the same. -/
theorem lines_inj (hlength : lines.length = lines'.length) (h : ∀ line ∈ lines, '\n' ∉ line.toList)
    (h' : ∀ line ∈ lines', '\n' ∉ line.toList) (heq : textOfLines lines ++ s = textOfLines lines' ++ s') :
    lines = lines' ∧ s = s' := by
  induction lines generalizing lines' with
  | nil =>
    obtain rfl := List.length_eq_zero_iff.mp hlength.symm
    exact ⟨rfl, (String.append_right_inj _).mp heq⟩
  | cons line lines ih =>
    obtain ⟨line', lines', rfl⟩ := List.exists_cons_of_length_eq_add_one hlength.symm
    simp only [textOfLines_cons, String.append_assoc] at heq
    obtain ⟨rfl, hrest⟩ := line_inj (h _ (List.mem_cons_self ..)) (h' _ (List.mem_cons_self ..)) heq
    obtain ⟨rfl, hs⟩ := ih (Nat.succ.inj hlength) (fun l hl => h l (List.mem_cons_of_mem _ hl))
      (fun l hl => h' l (List.mem_cons_of_mem _ hl)) hrest
    exact ⟨rfl, hs⟩

/-- A block is not mistaken for the line after the last one. -/
theorem IsBlock.text_ne {size : Nat} (h : IsBlock (size + 1) stop lines) (hstop : '\n' ∉ stop.toList) :
    textOfLines lines ++ s ≠ stop ++ ("\n" ++ s') := by
  obtain ⟨line, rest, rfl⟩ := List.exists_cons_of_length_eq_add_one h.length
  intro heq
  simp only [textOfLines_cons, String.append_assoc] at heq
  exact h.start line rest rfl (line_inj (h.whole line (List.mem_cons_self ..)) hstop heq).1

/-- **A run of blocks** is read in one way, up to the line that comes after it. -/
theorem blocks_inj {size : Nat} (hstop : '\n' ∉ stop.toList) (h : ∀ b ∈ blocks, IsBlock (size + 1) stop b)
    (h' : ∀ b ∈ blocks', IsBlock (size + 1) stop b)
    (heq : textOfLines blocks.flatten ++ (stop ++ ("\n" ++ s)) =
      textOfLines blocks'.flatten ++ (stop ++ ("\n" ++ s'))) : blocks = blocks' ∧ s = s' := by
  induction blocks generalizing blocks' with
  | nil =>
    cases blocks' with
    | nil => exact ⟨rfl, (line_inj hstop hstop ((String.append_right_inj _).mp heq)).2⟩
    | cons b' blocks' =>
      rw [List.flatten_cons, textOfLines_append, String.append_assoc] at heq
      exact absurd heq.symm ((h' b' (List.mem_cons_self ..)).text_ne hstop)
  | cons b blocks ih =>
    have hb := h b (List.mem_cons_self ..)
    cases blocks' with
    | nil =>
      rw [List.flatten_cons, textOfLines_append, String.append_assoc] at heq
      exact absurd heq (hb.text_ne hstop)
    | cons b' blocks' =>
      have hb' := h' b' (List.mem_cons_self ..)
      simp only [List.flatten_cons, textOfLines_append, String.append_assoc] at heq
      obtain ⟨rfl, hrest⟩ := lines_inj (hb.length.trans hb'.length.symm) hb.whole hb'.whole heq
      obtain ⟨rfl, hs⟩ := ih (fun c hc => h c (List.mem_cons_of_mem _ hc))
        (fun c hc => h' c (List.mem_cons_of_mem _ hc)) hrest
      exact ⟨rfl, hs⟩

/-- Whole blocks have no line feeds but those at the ends of their lines. -/
theorem textLength_blocks {size : Nat} (h : ∀ b ∈ blocks, IsBlock size stop b) :
    textLength blocks.flatten = size * blocks.length := by
  induction blocks with
  | nil => rfl
  | cons b blocks ih =>
    have hb := h b (List.mem_cons_self ..)
    rw [List.flatten_cons, textLength_append, textLength_eq_length_iff.mpr hb.whole, hb.length,
      ih fun c hc => h c (List.mem_cons_of_mem b hc), List.length_cons, Nat.mul_succ, Nat.add_comm]

/-! ## The layout -/

/-- The lines before the members. -/
def structureOpening (typeName : String) : List String :=
  ["#[allow(non_snake_case)]",
    "#[derive(Debug, Clone, Default, PartialEq)]",
    "pub struct " ++ typeName ++ " \x7b"]

/-- The lines between the end of the structure and the insertions. -/
def projectionOpening (typeName : String) : List String :=
  ["",
    "impl " ++ typeName ++ " \x7b",
    "    pub fn to_map(&self) -> serde_json::Map<String, serde_json::Value> \x7b",
    "        let mut map = serde_json::Map::new();"]

/-- The lines between the result of the projection and the filling. -/
def fillingOpening : List String :=
  ["    \x7d",
    "",
    "    pub fn from_map(",
    "        &mut self,",
    "        values: &serde_json::Map<String, serde_json::Value>,",
    "    ) -> Result<(), flowgen_core::ContractError> \x7b"]

/-- What stands for the value of a key that is not there, if there are steps that look for keys. -/
def absentLines (steps : List (List String)) : List String :=
  if steps = [] then [] else ["        let null = serde_json::Value::Null;"]

/-- The lines of a record type around its blocks. -/
def layout (typeName : String) (members insertions steps : List (List String)) : List String :=
  structureOpening typeName ++ members.flatten ++ "\x7d" :: projectionOpening typeName ++
    insertions.flatten ++ "        map" :: fillingOpening ++ absentLines steps ++ steps.flatten ++
    ["        Ok(())", "    \x7d", "\x7d"]

/-- The blocks of a record type. -/
structure IsLayout (members insertions steps : List (List String)) : Prop where
  /-- the members have a comment and a declaration -/
  members : ∀ b ∈ members, IsBlock 2 "\x7d" b
  /-- the insertions are statements of one line -/
  insertions : ∀ b ∈ insertions, IsBlock 1 "        map" b
  /-- the steps have a comment and statements of seven lines -/
  steps : ∀ b ∈ steps, IsBlock 8 "        Ok(())" b

variable {members insertions steps members' insertions' steps' : List (List String)}

/-- A layout as the text of its parts, in the order in which they are read. -/
theorem textOfLines_layout (typeName : String) (members insertions steps : List (List String)) :
    textOfLines (layout typeName members insertions steps) =
      textOfLines (structureOpening typeName) ++
        (textOfLines members.flatten ++ ("\x7d" ++ ("\n" ++ (textOfLines (projectionOpening typeName) ++
          (textOfLines insertions.flatten ++ ("        map" ++ ("\n" ++ (textOfLines fillingOpening ++
            (textOfLines (absentLines steps) ++ (textOfLines steps.flatten ++
              ("        Ok(())" ++ ("\n" ++ textOfLines ["    \x7d", "\x7d"])))))))))))) := by
  simp only [layout, textOfLines_append, textOfLines_cons, String.append_assoc]

/-- The steps are read in one way, whether there are any or not. -/
theorem steps_inj (h : ∀ b ∈ steps, IsBlock 8 "        Ok(())" b)
    (h' : ∀ b ∈ steps', IsBlock 8 "        Ok(())" b)
    (heq : textOfLines (absentLines steps) ++ (textOfLines steps.flatten ++ ("        Ok(())" ++ ("\n" ++ s))) =
      textOfLines (absentLines steps') ++
        (textOfLines steps'.flatten ++ ("        Ok(())" ++ ("\n" ++ s)))) : steps = steps' := by
  have hstop : '\n' ∉ "        Ok(())".toList := by decide
  have habsent : '\n' ∉ "        let null = serde_json::Value::Null;".toList := by decide
  have hne : "        Ok(())" ≠ "        let null = serde_json::Value::Null;" := by decide
  cases steps with
  | nil =>
    cases steps' with
    | nil => rfl
    | cons b' steps' =>
      simp only [absentLines, if_neg (List.cons_ne_nil _ _), if_pos, textOfLines_cons, textOfLines_nil,
        List.flatten_nil, String.empty_append, String.append_assoc] at heq
      exact absurd (line_inj hstop habsent heq).1 hne
  | cons b steps =>
    cases steps' with
    | nil =>
      simp only [absentLines, if_neg (List.cons_ne_nil _ _), if_pos, textOfLines_cons, textOfLines_nil,
        List.flatten_nil, String.empty_append, String.append_assoc] at heq
      exact absurd (line_inj habsent hstop heq).1 hne.symm
    | cons b' steps' =>
      rw [absentLines, absentLines, if_neg (List.cons_ne_nil _ _), if_neg (List.cons_ne_nil _ _)] at heq
      exact (blocks_inj hstop h h' ((String.append_right_inj _).mp heq)).1

/-- **There is one way to take a layout apart.** -/
theorem layout_inj {typeName : String} (h : IsLayout members insertions steps)
    (h' : IsLayout members' insertions' steps')
    (heq : textOfLines (layout typeName members insertions steps) =
      textOfLines (layout typeName members' insertions' steps')) :
    members = members' ∧ insertions = insertions' ∧ steps = steps' := by
  rw [textOfLines_layout, textOfLines_layout, String.append_right_inj] at heq
  obtain ⟨hmembers, hprojection⟩ := blocks_inj (by decide) h.members h'.members heq
  rw [String.append_right_inj] at hprojection
  obtain ⟨hinsertions, hfilling⟩ := blocks_inj (by decide) h.insertions h'.insertions hprojection
  rw [String.append_right_inj] at hfilling
  exact ⟨hmembers, hinsertions, steps_inj h.steps h'.steps hfilling⟩

theorem textLength_structureOpening (typeName : String) :
    textLength (structureOpening typeName) = lineFeeds typeName + 3 := by
  simp (disch := (rw [String.toList_ofList]; decide)) [structureOpening]
  omega

theorem textLength_projectionOpening (typeName : String) :
    textLength (projectionOpening typeName) = lineFeeds typeName + 4 := by
  simp (disch := (rw [String.toList_ofList]; decide)) [projectionOpening]
  omega

theorem textLength_fillingOpening : textLength fillingOpening = 6 := textLength_eq_length_iff.mpr (by decide)

theorem textLength_absentLines (steps : List (List String)) :
    textLength (absentLines steps) = if steps.length = 0 then 0 else 1 := by
  cases steps with
  | nil => rfl
  | cons b steps =>
    rw [absentLines, if_neg (List.cons_ne_nil b steps)]
    exact textLength_eq_length_iff.mpr (by decide)

/-- **The number of lines of a layout** with as many members as insertions and steps. -/
theorem lineFeeds_layout (typeName : String) (h : IsLayout members insertions steps)
    (hinsertions : insertions.length = members.length) (hsteps : steps.length = members.length) :
    lineFeeds (textOfLines (layout typeName members insertions steps)) =
      recordLength members.length + 2 * lineFeeds typeName := by
  have hmembers : textLength ("\x7d" :: projectionOpening typeName) = lineFeeds typeName + 5 := by
    rw [textLength_cons, textLength_projectionOpening, lineFeeds_of_notMem (by decide)]
    omega
  have hfilling : textLength ("        map" :: fillingOpening) = 7 := by
    rw [textLength_cons, textLength_fillingOpening, lineFeeds_of_notMem (by decide)]
  have hending : textLength ["        Ok(())", "    \x7d", "\x7d"] = 3 := textLength_eq_length_iff.mpr (by decide)
  rw [lineFeeds_textOfLines, layout, recordLength]
  simp only [textLength_append, textLength_structureOpening, hmembers, hfilling, hending,
    textLength_absentLines, textLength_blocks h.members, textLength_blocks h.insertions,
    textLength_blocks h.steps, hinsertions, hsteps]
  omega

/-! ## The layout of a record type -/

/-- What is written for the steps, block by block. -/
theorem fillAllLines_eq (index : Nat) (fields : List Field) :
    fillAllLines index fields =
      ((fields.zipIdx index).map fun (f, index) => fillLines index f).flatten := by
  induction fields generalizing index with
  | nil => rfl
  | cons f fields ih =>
    rw [fillAllLines, ih, List.zipIdx_cons, List.map_cons, List.flatten_cons]

/-- The source of a record type is a layout of what is written for its fields. -/
theorem recordSource_eq_layout (typeName : String) (c : Contract) :
    recordSource typeName c =
      textOfLines (layout typeName (c.fields.map memberLines) (c.fields.map fun f => [insertLine f])
        ((c.fields.zipIdx 0).map fun (f, index) => fillLines index f)) := by
  have hinsertions : (c.fields.map fun f => [insertLine f]).flatten = c.fields.map insertLine := by
    rw [← List.flatMap_def, List.map_eq_flatMap]
  have hsteps : ((c.fields.zipIdx 0).map fun (f, index) => fillLines index f) = [] ↔ c.fields = [] := by
    rw [List.map_eq_nil_iff, List.zipIdx_eq_nil_iff]
  rw [recordSource, recordLines, structureLines, toMapLines, fromMapLines, fillAllLines_eq,
    List.flatMap_def, layout, absentLines, hinsertions]
  simp only [hsteps, List.append_assoc]
  rfl

/-- A text that does not begin like another is not the other. -/
theorem ne_of_not_prefix {start rest other : String} (h : ¬start.toList <+: other.toList) :
    start ++ rest ≠ other := by
  rintro rfl
  exact h (String.toList_append ▸ List.prefix_append ..)

/-- A declared name that holds no line feed leaves the blocks of its field whole. -/
theorem isLayout_recordSource {fields : List Field} (h : ∀ f ∈ fields, '\n' ∉ f.name.toList) :
    IsLayout (fields.map memberLines) (fields.map fun f => [insertLine f])
      ((fields.zipIdx 0).map fun (f, index) => fillLines index f) where
  members b hb := by
    obtain ⟨f, hf, rfl⟩ := List.mem_map.mp hb
    have hlines : textLength (memberLines f) = (memberLines f).length := by
      rw [textLength_memberLines, lineFeeds_of_notMem (h f hf)]
      rfl
    refine ⟨rfl, textLength_eq_length_iff.mp hlines, ?_⟩
    rintro line rest ⟨⟩
    simp only [String.append_assoc]
    exact ne_of_not_prefix (by decide)
  insertions b hb := by
    obtain ⟨f, hf, rfl⟩ := List.mem_map.mp hb
    have hlines : textLength [insertLine f] = 1 := by
      rw [textLength_cons, lineFeeds_insertLine]
      rfl
    refine ⟨rfl, textLength_eq_length_iff.mp hlines, ?_⟩
    rintro line rest ⟨⟩
    unfold insertLine
    simp only [String.append_assoc]
    exact ne_of_not_prefix (by decide)
  steps b hb := by
    obtain ⟨⟨f, index⟩, hf, rfl⟩ := List.mem_map.mp hb
    have hlines : textLength (fillLines index f) = (fillLines index f).length := by
      rw [textLength_fillLines, lineFeeds_of_notMem (h f (List.fst_mem_of_mem_zipIdx hf))]
      rfl
    refine ⟨rfl, textLength_eq_length_iff.mp hlines, ?_⟩
    rintro line rest ⟨⟩
    simp only [String.append_assoc]
    exact ne_of_not_prefix (by decide)

end ExtensionKit.Generated
