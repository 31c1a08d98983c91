import ExtensionKit.Proofs.Json.Integers
import ExtensionKit.Proofs.Json.Members
import ExtensionKit.Proofs.Json.Strings

/-!
# Values read back

What `compact` writes, the reader reads back, whatever follows: as long as the value has integers for
numbers, no object with a repeated key, and no deeper nesting than the reader allows. Such values are
`Readable`.

The text of an array or an object is its first part followed by parts that begin with a comma. The loops
of the reader are taken apart the same way: `readItems_first` and `readMembers_first` read the first part,
and inductions over the others finish the text.
-/

namespace ExtensionKit.Json

/-! ## One reader after another -/

theorem Reading.andThen_ok (a : α) (rest : List Char) (next : α → List Char → Reading β) :
    Reading.andThen (.ok (a, rest)) next = next a rest := rfl

theorem Reading.andThen_error (f : Failure) (next : α → List Char → Reading β) :
    Reading.andThen (.error f) next = .error f := rfl

/-! ## Where values begin -/

/-- A text that begins with something that neither is skipped nor ends or goes on an array. -/
def Opens (text : List Char) : Prop :=
  ∃ c rest, text = c :: rest ∧ isSpace c = false ∧ c ≠ ']' ∧ c ≠ ','

/-- There is no white space before what a value begins with. -/
theorem skipSpace_of_opens {text : List Char} (h : Opens text) : skipSpace text = text := by
  obtain ⟨c, rest, rfl, hspace, -⟩ := h
  rw [skipSpace, List.dropWhile_cons, if_neg (by rw [hspace]; decide)]

/-- A character that no value begins with. -/
theorem readValue_stray {depth : Nat} {c : Char} {rest : List Char} {r : Json × List Char}
    (hc : c ∈ [' ', '\t', '\n', '\r', ']', ',']) : readValue depth (c :: rest) ≠ .ok r := by
  simp only [List.mem_cons, List.not_mem_nil, or_false] at hc
  intro h
  rcases hc with rfl | rfl | rfl | rfl | rfl | rfl <;> rw [readValue, if_neg (by decide)] at h <;>
    first | decide | cases h

theorem isSpace_iff {c : Char} : isSpace c = true ↔ c = ' ' ∨ c = '\t' ∨ c = '\n' ∨ c = '\r' := by
  simp only [isSpace, Bool.or_eq_true, beq_iff_eq, or_assoc]

theorem mem_of_isSpace {c : Char} (h : isSpace c = true) :
    c ∈ [' ', '\t', '\n', '\r', ']', ','] := by
  rcases isSpace_iff.mp h with rfl | rfl | rfl | rfl <;> decide

/-- What is read as a value opens. -/
theorem opens_of_readValue {depth : Nat} {text : List Char} {r : Json × List Char}
    (h : readValue depth text = .ok r) : Opens text := by
  cases text with
  | nil =>
    rw [readValue] at h
    cases h
  | cons c rest =>
    have hc : c ∉ [' ', '\t', '\n', '\r', ']', ','] := fun hc => readValue_stray hc h
    refine ⟨c, rest, rfl, ?_, ?_, ?_⟩
    · exact Bool.eq_false_iff.mpr fun hspace => hc (mem_of_isSpace hspace)
    · rintro rfl
      exact hc (by decide)
    · rintro rfl
      exact hc (by decide)

/-! ## Parts after commas -/

/-- The parts of a text after the first one, with a comma before each. -/
def later : List (List Char) → List Char
  | [] => []
  | part :: parts => ',' :: part ++ later parts

/-- Later parts are told by a comma each, so there are no more of them than characters. -/
theorem length_le_later (parts : List (List Char)) : parts.length ≤ (later parts).length := by
  induction parts with
  | nil => exact Nat.le_refl 0
  | cons part parts ih =>
    rw [later, List.length_append, List.length_cons, List.length_cons]
    omega

/-- Later parts stop a numeral, and so does what comes after the last. -/
theorem stops_later (parts : List (List Char)) {c : Char} (hdigit : Text.isDigit c = false)
    (hmark : c ≠ '.' ∧ c ≠ 'e' ∧ c ≠ 'E') (rest : List Char) :
    Stops (later parts ++ c :: rest) := by
  cases parts with
  | nil => exact stops_cons hdigit hmark rest
  | cons part parts => exact stops_cons (by decide) (by decide) _

/-! ## Arrays -/

theorem compactItems_cons (item : Json) (rest : List Json) :
    compactItems (item :: rest) = item.compact ++ later (rest.map compact) := by
  induction rest generalizing item with
  | nil => exact (List.append_nil _).symm
  | cons next rest ih => rw [compactItems, ih next, List.map_cons, later, List.cons_append]

theorem readItems_close (item : List Char → Reading Json) (bound : Nat) (first : Bool)
    (rest : List Char) : readItems item (bound + 1) first (']' :: rest) = .ok ([], rest) := by
  rw [readItems]
  rfl

/-- The first item, and what comes after it. -/
theorem readItems_first {item : List Char → Reading Json} (bound : Nat) {text : List Char}
    (hopens : Opens text) :
    readItems item (bound + 1) true text =
      Reading.andThen (item text) fun value after =>
        Reading.andThen (readItems item bound false after) fun values after =>
          .ok (value :: values, after) := by
  have hskip := skipSpace_of_opens hopens
  obtain ⟨c, rest, rfl, -, hclose, hcomma⟩ := hopens
  rw [readItems]
  simp only [hskip, if_pos]
  split
  · next heq => cases heq
  · next heq => exact absurd (List.cons.inj heq).1 hclose
  · next heq => exact absurd (List.cons.inj heq).1 hcomma
  · simp only [hskip]

/-- An item after a comma, and what comes after it. -/
theorem readItems_later {item : List Char → Reading Json} (bound : Nat) {text : List Char}
    (hopens : Opens text) :
    readItems item (bound + 1) false (',' :: text) =
      Reading.andThen (item text) fun value after =>
        Reading.andThen (readItems item bound false after) fun values after =>
          .ok (value :: values, after) := by
  have hskip := skipSpace_of_opens hopens
  have hcomma : skipSpace (',' :: text) = ',' :: text := rfl
  obtain ⟨c, rest, rfl, -, hclose, -⟩ := hopens
  rw [readItems]
  simp only [hcomma, hskip, if_neg Bool.false_ne_true]
  split
  · next heq => cases heq
  · next heq => exact absurd (List.cons.inj heq).1 hclose
  · rfl

/-- The items after the first are read one by one, up to the bracket. -/
theorem readItems_laterItems {depth : Nat} {items : List Json}
    (hitems : ∀ j ∈ items, Reads (readValue depth) j.compact j) {bound : Nat}
    (hbound : items.length < bound) (rest : List Char) :
    readItems (readValue depth) bound false (later (items.map compact) ++ ']' :: rest) =
      .ok (items, rest) := by
  induction items generalizing bound with
  | nil =>
    obtain ⟨bound, rfl⟩ : ∃ b, bound = b + 1 := Nat.exists_eq_add_one.mpr hbound
    exact readItems_close _ bound false rest
  | cons item items ih =>
    rw [List.length_cons] at hbound
    obtain ⟨bound, rfl⟩ : ∃ b, bound = b + 1 := ⟨bound - 1, by omega⟩
    have hread := hitems item (List.mem_cons_self ..) _
      (stops_later (items.map compact) (c := ']') (by decide) (by decide) rest)
    rw [List.map_cons, later, List.append_assoc, List.cons_append,
      readItems_later bound (opens_of_readValue hread), hread, Reading.andThen_ok,
      ih (fun j hj => hitems j (List.mem_cons_of_mem item hj)) (by omega)]
    rfl

/-- **An array is read back** if its items are. -/
theorem reads_array {depth : Nat} {items : List Json}
    (hitems : ∀ j ∈ items, Reads (readValue depth) j.compact j) :
    Reads (readValue (depth + 1)) (compact (.array items)) (.array items) := by
  intro rest _
  rw [compact, List.append_assoc, List.cons_append, List.singleton_append, readValue]
  cases items with
  | nil => rfl
  | cons item items =>
    have hread := hitems item (List.mem_cons_self ..) _
      (stops_later (items.map compact) (c := ']') (by decide) (by decide) rest)
    have hlength := length_le_later (items.map compact)
    rw [List.length_map] at hlength
    rw [compactItems_cons, List.append_assoc, readItems_first _ (opens_of_readValue hread), hread,
      Reading.andThen_ok, readItems_laterItems fun j hj => hitems j (List.mem_cons_of_mem item hj)]
    · rfl
    · -- the bound is the length of the text, which has a comma for every later item
      rw [List.length_append, List.length_append, List.length_cons]
      omega

/-! ## Objects -/

/-- The text of a member. -/
def compactMember (m : String × Json) : List Char := quote m.1.toList ++ ':' :: m.2.compact

theorem compactMembers_cons (m : String × Json) (rest : Members) :
    compactMembers (m :: rest) = compactMember m ++ later (rest.map compactMember) := by
  induction rest generalizing m with
  | nil => exact (List.append_nil _).symm
  | cons next rest ih =>
    rw [compactMembers, ih next, List.map_cons, later, List.cons_append]
    rfl

theorem readMember_compactMember {depth : Nat} {m : String × Json}
    (hm : Reads (readValue depth) m.2.compact m.2) :
    Reads (readMember (readValue depth)) (compactMember m) m := by
  intro rest hrest
  have hread := hm rest hrest
  have hcolon : ∀ text, skipSpace (':' :: text) = ':' :: text := fun _ => rfl
  rw [compactMember, quote, List.append_assoc, List.append_assoc, List.cons_append,
    List.singleton_append, readMember, List.cons_append, readString_quote]
  simp only [Reading.andThen, hcolon, skipSpace_of_opens (opens_of_readValue hread), hread]

theorem readMembers_close (item : List Char → Reading Json) (bound : Nat) (first : Bool)
    (ms : Members) (rest : List Char) :
    readMembers item (bound + 1) first ms ('\x7d' :: rest) = .ok (ms, rest) := by
  rw [readMembers]
  rfl

/-- The text of a member begins with a quote. -/
theorem compactMember_append (m : String × Json) (rest : List Char) :
    ∃ text, compactMember m ++ rest = '"' :: text := by
  rw [compactMember, quote, List.append_assoc, List.append_assoc, List.cons_append]
  exact ⟨_, rfl⟩

/-- The first member, and what comes after it. -/
theorem readMembers_first (item : List Char → Reading Json) (bound : Nat) (ms : Members)
    (m : String × Json) (rest : List Char) :
    readMembers item (bound + 1) true ms (compactMember m ++ rest) =
      Reading.andThen (readMember item (compactMember m ++ rest)) fun m after =>
        readMembers item bound false (ms.insert m.1 m.2) after := by
  obtain ⟨text, htext⟩ := compactMember_append m rest
  have hskip : skipSpace ('"' :: text) = '"' :: text := rfl
  rw [htext, readMembers]
  simp only [hskip, if_pos]
  rw [← hskip]
  rfl

/-- A member after a comma, and what comes after it. -/
theorem readMembers_later (item : List Char → Reading Json) (bound : Nat) (ms : Members)
    (m : String × Json) (rest : List Char) :
    readMembers item (bound + 1) false ms (',' :: (compactMember m ++ rest)) =
      Reading.andThen (readMember item (compactMember m ++ rest)) fun m after =>
        readMembers item bound false (ms.insert m.1 m.2) after := by
  obtain ⟨text, htext⟩ := compactMember_append m rest
  have hskip : skipSpace ('"' :: text) = '"' :: text := rfl
  have hcomma : ∀ text, skipSpace (',' :: text) = ',' :: text := fun _ => rfl
  rw [htext, readMembers]
  simp only [hcomma, hskip, if_neg Bool.false_ne_true]

/-- Members with new keys are put after those already read. -/
theorem readMembers_laterMembers {depth : Nat} {ms : Members}
    (hms : ∀ m ∈ ms, Reads (readValue depth) m.2.compact m.2) {before : Members}
    (nodup : Members.keys (before ++ ms) |>.Nodup) {bound : Nat} (hbound : ms.length < bound)
    (rest : List Char) :
    readMembers (readValue depth) bound false before
      (later (ms.map compactMember) ++ '\x7d' :: rest) = .ok (before ++ ms, rest) := by
  induction ms generalizing bound before with
  | nil =>
    obtain ⟨bound, rfl⟩ : ∃ b, bound = b + 1 := Nat.exists_eq_add_one.mpr hbound
    rw [List.append_nil]
    exact readMembers_close _ bound false before rest
  | cons m ms ih =>
    rw [List.length_cons] at hbound
    obtain ⟨bound, rfl⟩ : ∃ b, bound = b + 1 := ⟨bound - 1, by omega⟩
    have hread := readMember_compactMember (hms m (List.mem_cons_self ..)) _
      (stops_later (ms.map compactMember) (c := '\x7d') (by decide) (by decide) rest)
    have hfresh : m.1 ∉ Members.keys before := by
      intro hm
      rw [Members.keys, List.map_append, List.nodup_append] at nodup
      exact nodup.2.2 _ hm _ (List.mem_cons_self ..) rfl
    rw [List.append_cons] at nodup
    rw [List.map_cons, later, List.append_assoc, List.cons_append, readMembers_later, hread,
      Reading.andThen_ok, Members.insert_of_notMem hfresh,
      ih (fun m' hm' => hms m' (List.mem_cons_of_mem m hm')) nodup (by omega), ← List.append_cons]

/-- **An object is read back** if its members are and no key is repeated. -/
theorem reads_object {depth : Nat} {ms : Members} (nodup : ms.keys.Nodup)
    (hms : ∀ m ∈ ms, Reads (readValue depth) m.2.compact m.2) :
    Reads (readValue (depth + 1)) (compact (.object ms)) (.object ms) := by
  intro rest _
  rw [compact, List.append_assoc, List.cons_append, List.singleton_append, readValue]
  cases ms with
  | nil => rfl
  | cons m ms =>
    have hread := readMember_compactMember (hms m (List.mem_cons_self ..)) _
      (stops_later (ms.map compactMember) (c := '\x7d') (by decide) (by decide) rest)
    have hlength := length_le_later (ms.map compactMember)
    rw [List.length_map] at hlength
    rw [compactMembers_cons, List.append_assoc, readMembers_first, hread, Reading.andThen_ok,
      readMembers_laterMembers fun m' hm' => hms m' (List.mem_cons_of_mem m hm')]
    · rfl
    · exact nodup
    · rw [List.length_append, List.length_append, List.length_cons]
      omega

/-! ## Readable values -/

/-- A value that is read back with some brackets and braces still to open: its numbers are integers, its
keys are distinct in each object, and it is not nested too deeply. -/
inductive Readable : Nat → Json → Prop where
  | null {depth : Nat} : Readable depth .null
  | bool {depth : Nat} (b : Bool) : Readable depth (.bool b)
  | integer {depth : Nat} (i : Int) (bounded : -0x8000000000000000 ≤ i ∧ i < 0x10000000000000000) :
    Readable depth (.number (.integer i bounded))
  | string {depth : Nat} (s : String) : Readable depth (.string s)
  | array {depth : Nat} {items : List Json} (h : ∀ j ∈ items, Readable depth j) :
    Readable (depth + 1) (.array items)
  | object {depth : Nat} {ms : Members} (nodup : ms.keys.Nodup)
    (h : ∀ m ∈ ms, Readable depth m.2) : Readable (depth + 1) (.object ms)

/-- **Readable values are read back.** -/
theorem Readable.reads {depth : Nat} {j : Json} (h : Readable depth j) :
    Reads (readValue depth) j.compact j := by
  induction h with
  | null =>
    intro rest _
    rw [compact, List.cons_append, readValue]
    rfl
  | bool b =>
    intro rest _
    cases b <;> rw [compact, List.cons_append, readValue] <;> rfl
  | integer i bounded => exact reads_integer _ i bounded
  | string s =>
    intro rest _
    rw [compact, quote, List.append_assoc, List.cons_append, List.singleton_append, readValue,
      readString_quote]
    rfl
  | array _ ih => exact reads_array ih
  | object nodup _ ih => exact reads_object nodup ih

/-- **The text of a readable value determines it.** -/
theorem Readable.eq_of_text {depth : Nat} {j k : Json} (hj : Readable depth j)
    (hk : Readable depth k) (h : j.text = k.text) : j = k := by
  have hcompact : j.compact = k.compact := String.ofList_injective h
  have hread := hj.reads [] stops_nil
  rw [hcompact, hk.reads [] stops_nil] at hread
  exact (Prod.mk.inj (Except.ok.inj hread)).1.symm

/-- **The text of a readable value is read as that value.** -/
theorem Readable.read_text {j : Json} (h : Readable greatestDepth j) : read j.text.toList = .ok j := by
  have hread := h.reads [] stops_nil
  rw [List.append_nil] at hread
  rw [text, String.toList_ofList, read, skipSpace_of_opens (opens_of_readValue hread), hread]
  rfl

end ExtensionKit.Json
