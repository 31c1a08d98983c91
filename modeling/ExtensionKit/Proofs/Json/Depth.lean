import ExtensionKit.Proofs.Json.Reader
import ExtensionKit.Proofs.List.First

/-!
# How deep values nest

The reader counts the brackets and braces that are open, and stops at one too many. So the text of a value
is read back exactly if the value does not nest deeper than that.

* `Json.depth` is the number of brackets and braces around the innermost value. A *plain* value, which has
  integers for numbers and no object with a repeated key, is readable if its depth is allowed
  (`Json.Plain.readable`).
* In a value that nests too deeply there is a first part that does. What comes before it is read back, and
  the failure in it is the failure of the whole (`Json.Plain.tooDeep`).
-/

namespace ExtensionKit.Json

mutual

/-- How many brackets and braces nest in a value. -/
def depth : Json → Nat
  | .array items => depthOfItems items + 1
  | .object members => depthOfMembers members + 1
  | .null => 0
  | .bool _ => 0
  | .number _ => 0
  | .string _ => 0

/-- The greatest depth among items. -/
def depthOfItems : List Json → Nat
  | [] => 0
  | item :: rest => max (depth item) (depthOfItems rest)

/-- The greatest depth among the values of members. -/
def depthOfMembers : List (String × Json) → Nat
  | [] => 0
  | (_, value) :: rest => max (depth value) (depthOfMembers rest)

end

theorem depthOfItems_le_iff {items : List Json} {d : Nat} :
    depthOfItems items ≤ d ↔ ∀ j ∈ items, j.depth ≤ d := by
  induction items with
  | nil => simp [depthOfItems]
  | cons item rest ih => rw [depthOfItems, Nat.max_le, ih, List.forall_mem_cons]

/-- A bound on the depth of members is one on each of their values. -/
theorem depthOfMembers_le_iff {ms : Members} {d : Nat} :
    depthOfMembers ms ≤ d ↔ ∀ m ∈ ms, m.2.depth ≤ d := by
  induction ms with
  | nil => simp [depthOfMembers]
  | cons m rest ih => rw [depthOfMembers, Nat.max_le, ih, List.forall_mem_cons]

/-! ## Plain values -/

/-- A value whose numbers are integers and whose objects have distinct keys. -/
inductive Plain : Json → Prop where
  | null : Plain .null
  | bool (b : Bool) : Plain (.bool b)
  | integer (i : Int) (bounded : -0x8000000000000000 ≤ i ∧ i < 0x10000000000000000) :
    Plain (.number (.integer i bounded))
  | string (s : String) : Plain (.string s)
  | array {items : List Json} (h : ∀ j ∈ items, Plain j) : Plain (.array items)
  | object {ms : Members} (nodup : ms.keys.Nodup) (h : ∀ m ∈ ms, Plain m.2) : Plain (.object ms)

/-- **A plain value is readable** where its depth is allowed. -/
theorem Plain.readable {j : Json} (h : j.Plain) {d : Nat} (hd : j.depth ≤ d) : Readable d j := by
  induction h generalizing d with
  | null => exact .null
  | bool b => exact .bool b
  | integer i bounded => exact .integer i bounded
  | string s => exact .string s
  | array _ ih =>
    rw [depth] at hd
    obtain ⟨d, rfl⟩ : ∃ e, d = e + 1 := ⟨d - 1, by omega⟩
    have hitems := depthOfItems_le_iff.mp (Nat.le_of_succ_le_succ hd)
    exact .array fun j hj => ih j hj (hitems j hj)
  | object nodup _ ih =>
    rw [depth] at hd
    obtain ⟨d, rfl⟩ : ∃ e, d = e + 1 := ⟨d - 1, by omega⟩
    have hms := depthOfMembers_le_iff.mp (Nat.le_of_succ_le_succ hd)
    exact .object nodup fun m hm => ih m hm (hms m hm)

/-- The text of a plain value opens, whether or not it is read to its end. -/
theorem Plain.opens {j : Json} (h : j.Plain) {rest : List Char} (hrest : Stops rest) :
    Opens (j.compact ++ rest) :=
  opens_of_readValue ((h.readable (Nat.le_refl _)).reads rest hrest)

/-! ## Failures for depth -/

/-- A reading that fails for depth. -/
def Exceeds (r : Reading α) : Prop := ∃ f, r = .error f ∧ f.cause = .tooDeep

/-- A reader that finds the text too deep goes on to nothing else. -/
theorem Exceeds.andThen {r : Reading α} (h : Exceeds r) (next : α → List Char → Reading β) :
    Exceeds (r.andThen next) := by
  obtain ⟨f, rfl, hf⟩ := h
  exact ⟨f, Reading.andThen_error f next, hf⟩

/-- A text that nests too deeply for a reader, whatever follows. -/
def TooDeep (read : List Char → Reading α) (text : List Char) : Prop :=
  ∀ rest, Stops rest → Exceeds (read (text ++ rest))

theorem tooDeep_bracket (text : List Char) : TooDeep (readValue 0) ('[' :: text) := by
  intro rest _
  rw [List.cons_append, readValue]
  exact ⟨_, rfl, rfl⟩

theorem tooDeep_brace (text : List Char) : TooDeep (readValue 0) ('\x7b' :: text) := by
  intro rest _
  rw [List.cons_append, readValue]
  exact ⟨_, rfl, rfl⟩

/-! ### Arrays -/

/-- Items that are read back, and then one that nests too deeply. -/
theorem exceeds_laterItems {d : Nat} {before after : List Json} {j : Json}
    (hbefore : ∀ i ∈ before, Reads (readValue d) i.compact i) (hj : j.Plain)
    (hdeep : TooDeep (readValue d) j.compact) {bound : Nat} (hbound : before.length < bound)
    (rest : List Char) :
    Exceeds (readItems (readValue d) bound false
      (later ((before ++ j :: after).map compact) ++ ']' :: rest)) := by
  have hstops : ∀ items : List Json, Stops (later (items.map compact) ++ ']' :: rest) :=
    fun items => stops_later (items.map compact) (by decide) (by decide) rest
  induction before generalizing bound with
  | nil =>
    obtain ⟨bound, rfl⟩ : ∃ b, bound = b + 1 := Nat.exists_eq_add_one.mpr hbound
    rw [List.nil_append, List.map_cons, later, List.append_assoc, List.cons_append,
      readItems_later bound (hj.opens (hstops after))]
    exact (hdeep _ (hstops after)).andThen _
  | cons i before ih =>
    rw [List.length_cons] at hbound
    obtain ⟨bound, rfl⟩ : ∃ b, bound = b + 1 := ⟨bound - 1, by omega⟩
    have hread := hbefore i (List.mem_cons_self ..) _ (hstops (before ++ j :: after))
    rw [List.cons_append, List.map_cons, later, List.append_assoc, List.cons_append,
      readItems_later bound (opens_of_readValue hread), hread, Reading.andThen_ok]
    exact (ih (fun k hk => hbefore k (List.mem_cons_of_mem i hk)) (by omega)).andThen _

/-- An array nests too deeply if its first item that is not read back does. -/
theorem tooDeep_array {d : Nat} {before after : List Json} {j : Json}
    (hbefore : ∀ i ∈ before, Reads (readValue d) i.compact i) (hj : j.Plain)
    (hdeep : TooDeep (readValue d) j.compact) :
    TooDeep (readValue (d + 1)) (compact (.array (before ++ j :: after))) := by
  intro rest _
  have hstops : ∀ items : List Json, Stops (later (items.map compact) ++ ']' :: rest) :=
    fun items => stops_later (items.map compact) (by decide) (by decide) rest
  rw [compact, List.append_assoc, List.cons_append, List.singleton_append, readValue]
  refine Exceeds.andThen ?_ _
  cases before with
  | nil =>
    rw [List.nil_append, compactItems_cons, List.append_assoc,
      readItems_first _ (hj.opens (hstops after))]
    exact (hdeep _ (hstops after)).andThen _
  | cons i before =>
    have hread := hbefore i (List.mem_cons_self ..) _ (hstops (before ++ j :: after))
    have hlength := length_le_later ((before ++ j :: after).map compact)
    rw [List.length_map, List.length_append] at hlength
    rw [List.cons_append, compactItems_cons, List.append_assoc,
      readItems_first _ (opens_of_readValue hread), hread, Reading.andThen_ok]
    refine (exceeds_laterItems (fun k hk => hbefore k (List.mem_cons_of_mem i hk)) hj hdeep ?_ rest).andThen _
    rw [List.length_append, List.length_append, List.length_cons]
    omega

/-! ### Objects -/

/-- A member is too deep if its value is. -/
theorem tooDeep_compactMember {d : Nat} {m : String × Json} (hm : m.2.Plain)
    (hdeep : TooDeep (readValue d) m.2.compact) :
    TooDeep (readMember (readValue d)) (compactMember m) := by
  intro rest hrest
  have hcolon : ∀ text, skipSpace (':' :: text) = ':' :: text := fun _ => rfl
  rw [compactMember, quote, List.append_assoc, List.append_assoc, List.cons_append,
    List.singleton_append, readMember, List.cons_append, readString_quote, Reading.andThen_ok]
  simp only [hcolon, skipSpace_of_opens (hm.opens hrest)]
  exact (hdeep rest hrest).andThen _

/-- Members that are read back, and then one that nests too deeply. -/
theorem exceeds_laterMembers {d : Nat} {before after : Members} {m : String × Json}
    (hbefore : ∀ n ∈ before, Reads (readValue d) n.2.compact n.2) (hm : m.2.Plain)
    (hdeep : TooDeep (readValue d) m.2.compact) (ms : Members) {bound : Nat}
    (hbound : before.length < bound) (rest : List Char) :
    Exceeds (readMembers (readValue d) bound false ms
      (later ((before ++ m :: after).map compactMember) ++ '\x7d' :: rest)) := by
  have hstops : ∀ ns : Members, Stops (later (ns.map compactMember) ++ '\x7d' :: rest) :=
    fun ns => stops_later (ns.map compactMember) (by decide) (by decide) rest
  induction before generalizing bound ms with
  | nil =>
    obtain ⟨bound, rfl⟩ : ∃ b, bound = b + 1 := Nat.exists_eq_add_one.mpr hbound
    rw [List.nil_append, List.map_cons, later, List.append_assoc, List.cons_append,
      readMembers_later]
    exact (tooDeep_compactMember hm hdeep _ (hstops after)).andThen _
  | cons n before ih =>
    rw [List.length_cons] at hbound
    obtain ⟨bound, rfl⟩ : ∃ b, bound = b + 1 := ⟨bound - 1, by omega⟩
    have hread := readMember_compactMember (hbefore n (List.mem_cons_self ..)) _
      (hstops (before ++ m :: after))
    rw [List.cons_append, List.map_cons, later, List.append_assoc, List.cons_append,
      readMembers_later, hread, Reading.andThen_ok]
    exact ih (fun k hk => hbefore k (List.mem_cons_of_mem n hk)) _ (by omega)

/-- An object nests too deeply if its first member that is not read back does. -/
theorem tooDeep_object {d : Nat} {before after : Members} {m : String × Json}
    (hbefore : ∀ n ∈ before, Reads (readValue d) n.2.compact n.2) (hm : m.2.Plain)
    (hdeep : TooDeep (readValue d) m.2.compact) :
    TooDeep (readValue (d + 1)) (compact (.object (before ++ m :: after))) := by
  intro rest _
  have hstops : ∀ ns : Members, Stops (later (ns.map compactMember) ++ '\x7d' :: rest) :=
    fun ns => stops_later (ns.map compactMember) (by decide) (by decide) rest
  rw [compact, List.append_assoc, List.cons_append, List.singleton_append, readValue]
  refine Exceeds.andThen ?_ _
  cases before with
  | nil =>
    rw [List.nil_append, compactMembers_cons, List.append_assoc, readMembers_first]
    exact (tooDeep_compactMember hm hdeep _ (hstops after)).andThen _
  | cons n before =>
    have hread := readMember_compactMember (hbefore n (List.mem_cons_self ..)) _
      (hstops (before ++ m :: after))
    have hlength := length_le_later ((before ++ m :: after).map compactMember)
    rw [List.length_map, List.length_append] at hlength
    rw [List.cons_append, compactMembers_cons, List.append_assoc, readMembers_first, hread,
      Reading.andThen_ok]
    refine exceeds_laterMembers (fun k hk => hbefore k (List.mem_cons_of_mem n hk)) hm hdeep _ ?_ rest
    rw [List.length_append, List.length_append, List.length_cons]
    omega

/-! ## The limit -/

/-- **A plain value that nests deeper than the reader allows** is refused for that. -/
theorem Plain.tooDeep {j : Json} (h : j.Plain) {d : Nat} (hd : d < j.depth) :
    TooDeep (readValue d) j.compact := by
  induction h generalizing d with
  | null => exact absurd hd (Nat.not_lt_zero d)
  | bool b => exact absurd hd (Nat.not_lt_zero d)
  | integer i bounded => exact absurd hd (Nat.not_lt_zero d)
  | string s => exact absurd hd (Nat.not_lt_zero d)
  | @array items plain ih =>
    cases d with
    | zero =>
      rw [compact]
      exact tooDeep_bracket _
    | succ d =>
      rw [depth, Nat.succ_lt_succ_iff, ← Nat.not_le, depthOfItems_le_iff] at hd
      obtain ⟨before, j, after, rfl, hbefore, hj⟩ := exists_first_not hd
      have hmem : j ∈ before ++ j :: after := List.mem_append_right _ (List.mem_cons_self ..)
      refine tooDeep_array (fun i hi => ?_) (plain j hmem) (ih j hmem (Nat.lt_of_not_le hj))
      exact ((plain i (List.mem_append_left _ hi)).readable (hbefore i hi)).reads
  | @object ms nodup plain ih =>
    cases d with
    | zero =>
      rw [compact]
      exact tooDeep_brace _
    | succ d =>
      rw [depth, Nat.succ_lt_succ_iff, ← Nat.not_le, depthOfMembers_le_iff] at hd
      obtain ⟨before, m, after, rfl, hbefore, hm⟩ := exists_first_not hd
      have hmem : m ∈ before ++ m :: after := List.mem_append_right _ (List.mem_cons_self ..)
      refine tooDeep_object (fun n hn => ?_) (plain m hmem) (ih m hmem (Nat.lt_of_not_le hm))
      exact ((plain n (List.mem_append_left _ hn)).readable (hbefore n hn)).reads

end ExtensionKit.Json
