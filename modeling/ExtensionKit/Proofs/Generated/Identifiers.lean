import ExtensionKit.Identifier

/-!
# Stems of identifiers

The *stem* of a name is its identifier before the reserved words are looked at. Every identifier of a
name is made from the stem: the plain one and the variable of an argument by their treatment of reserved
words, and, for a name that starts in ASCII, the exported one by a capital at the start. That holds for
every rule for capitals that is the usual one on ASCII (`Identifier.exportedBy_eq`).
-/

namespace ExtensionKit.Identifier

/-- A name in the characters of identifiers, with no digit at the start. -/
def stem (name : List Char) : List Char :=
  match name.map wordCharacter with
  | [] => unnamed
  | word => guardDigit word

/-- An identifier is a stem that is kept clear of the reserved words. -/
theorem sanitize_eq (name : List Char) : sanitize name = guardKeyword (stem name) := by
  rw [sanitize, stem]
  cases name.map wordCharacter with
  | nil => rfl
  | cons c rest => rfl

theorem stem_cons (c : Char) (rest : List Char) :
    stem (c :: rest) = guardDigit (wordCharacter c :: rest.map wordCharacter) := rfl

/-- Whatever stands for a character may stand in an identifier. -/
theorem isWordCharacter_wordCharacter (c : Char) : isWordCharacter (wordCharacter c) = true := by
  rw [wordCharacter]
  split
  · assumption
  · decide

/-- **A stem is made of the characters of identifiers.** -/
theorem isWordCharacter_of_mem_stem {name : List Char} {c : Char} (h : c ∈ stem name) :
    isWordCharacter c = true := by
  have hmap : ∀ d ∈ name.map wordCharacter, isWordCharacter d = true := by
    intro d hd
    obtain ⟨e, -, rfl⟩ := List.mem_map.mp hd
    exact isWordCharacter_wordCharacter e
  rw [stem] at h
  split at h
  · have hunnamed : unnamed.all isWordCharacter = true := by decide
    exact List.all_eq_true.mp hunnamed c h
  · next word hne =>
    rw [guardDigit.eq_def] at h
    split at h
    · cases h
    · next d rest hcons =>
      rw [← hcons] at h
      split at h
      · rcases List.mem_cons.mp h with rfl | h
        · decide
        · exact hmap c h
      · exact hmap c h

/-- There is no mark of a raw identifier in a stem. -/
theorem mark_notMem_stem (name : List Char) : '#' ∉ stem name :=
  fun h => absurd (isWordCharacter_of_mem_stem h) (by decide)

/-! ## The variable of an argument -/

/-- The words that the variable of an argument cannot be, even with the mark of a raw identifier. An
underscore after them makes the variable. -/
def yielding : List (List Char) := ("params" :: neverRaw).map String.toList

/-- A stem as the variable of an argument. -/
def yieldKeyword (word : List Char) : List Char :=
  if word = "params".toList then word ++ ['_'] else guardKeyword word

theorem yieldKeyword_of_mem {word : List Char} (h : word ∈ yielding) :
    yieldKeyword word = word ++ ['_'] := by
  have hall : ∀ w ∈ yielding, yieldKeyword w = w ++ ['_'] := by decide
  exact hall word h

theorem yieldKeyword_of_notMem {word : List Char} (h : word ∉ yielding) :
    yieldKeyword word =
      if word ∈ keywords.map String.toList then 'r' :: '#' :: word else word := by
  obtain ⟨hparams, hraw⟩ := not_or.mp (mt List.mem_cons.mpr h)
  rw [yieldKeyword, if_neg hparams, guardKeyword, if_neg hraw]

/-- **The variable of an argument is made from its stem.** -/
theorem argument_eq (name : String) :
    argument name = String.ofList (yieldKeyword (stem name.toList)) := by
  rw [argument, plain, sanitize_eq]
  generalize stem name.toList = word
  by_cases h : word = "params".toList
  · subst h
    decide
  · have hparams : String.ofList (guardKeyword word) ≠ "params" := by
      intro heq
      have hword : guardKeyword word = "params".toList := by rw [← heq, String.toList_ofList]
      rw [guardKeyword] at hword
      split at hword
      · exact absurd (congrArg List.getLast? hword) (by simp)
      · split at hword
        · exact absurd (List.cons.inj hword).1 (by decide)
        · exact h hword
    rw [yieldKeyword, if_neg h]
    exact if_neg hparams

/-- The first stem gives way, and the underscore after it makes the second. -/
def GivesWayTo (v w : List Char) : Prop := v ∈ yielding ∧ w = v ++ ['_']

/-- Two stems that make the same variable: they are equal, or one of them gives way to the other. -/
def SameVariable (v w : List Char) : Prop := v = w ∨ GivesWayTo v w ∨ GivesWayTo w v

instance (v w : List Char) : Decidable (GivesWayTo v w) := inferInstanceAs (Decidable (_ ∧ _))

instance (v w : List Char) : Decidable (SameVariable v w) := inferInstanceAs (Decidable (_ ∨ _))

theorem yieldKeyword_underscore {word : List Char} (h : word ∈ yielding) :
    yieldKeyword (word ++ ['_']) = word ++ ['_'] := by
  have hall : ∀ w ∈ yielding, yieldKeyword (w ++ ['_']) = w ++ ['_'] := by decide
  exact hall word h

/-- A stem that gives way makes the variable of no other stem than the one that it gives way to. -/
theorem eq_of_yieldKeyword_eq {v w : List Char} (hv : v ∈ yielding)
    (h : yieldKeyword v = yieldKeyword w) : v = w ∨ w = v ++ ['_'] := by
  rw [yieldKeyword_of_mem hv] at h
  by_cases hw' : w ∈ yielding
  · rw [yieldKeyword_of_mem hw'] at h
    exact .inl (List.append_cancel_right h)
  · rw [yieldKeyword_of_notMem hw'] at h
    split at h
    · -- a raw identifier has its mark, which no word that gives way has
      have hmark : ∀ v ∈ yielding, '#' ∉ v ++ ['_'] := by decide
      exact absurd (h ▸ List.mem_cons_of_mem _ (List.mem_cons_self ..)) (hmark v hv)
    · exact .inr h.symm

/-- **Which stems make the same variable.** -/
theorem yieldKeyword_eq_iff {v w : List Char} (hv : '#' ∉ v) (hw : '#' ∉ w) :
    yieldKeyword v = yieldKeyword w ↔ SameVariable v w := by
  constructor
  · intro h
    by_cases hv' : v ∈ yielding
    · rcases eq_of_yieldKeyword_eq hv' h with heq | heq
      · exact .inl heq
      · exact .inr (.inl ⟨hv', heq⟩)
    · by_cases hw' : w ∈ yielding
      · rcases eq_of_yieldKeyword_eq hw' h.symm with heq | heq
        · exact .inl heq.symm
        · exact .inr (.inr ⟨hw', heq⟩)
      · rw [yieldKeyword_of_notMem hv', yieldKeyword_of_notMem hw'] at h
        have hraw : ∀ u : List Char, '#' ∈ 'r' :: '#' :: u :=
          fun u => List.mem_cons_of_mem _ (List.mem_cons_self ..)
        split at h
        · split at h
          · exact .inl (List.cons.inj (List.cons.inj h).2).2
          · exact absurd (h ▸ hraw v) hw
        · split at h
          · exact absurd (h ▸ hraw w) hv
          · exact .inl h
  · rintro (rfl | ⟨hv', rfl⟩ | ⟨hw', rfl⟩)
    · rfl
    · rw [yieldKeyword_underscore hv', yieldKeyword_of_mem hv']
    · rw [yieldKeyword_underscore hw', yieldKeyword_of_mem hw']

theorem argument_eq_iff {a b : String} :
    argument a = argument b ↔ SameVariable (stem a.toList) (stem b.toList) := by
  rw [argument_eq, argument_eq, String.ofList_inj,
    yieldKeyword_eq_iff (mark_notMem_stem _) (mark_notMem_stem _)]

/-! ## The exported identifier -/

/-- What holds of the first 128 characters holds of all of ASCII. -/
@[elab_as_elim] theorem of_ascii {motive : Char → Prop} (c : Char) (hc : c.toNat < 128)
    (h : ∀ n < 128, motive (Char.ofNat n)) : motive c := by
  rw [← Char.ofNat_toNat c]
  exact h c.toNat hc

/-- A name that is empty or starts with an ASCII character. -/
def StartsInAscii (name : List Char) : Prop := ∀ c ∈ name.head?, c.toNat < 128

/-- A rule for capitals that is the usual one on ASCII. -/
def UsualOnAscii (capital : Char → List Char) : Prop :=
  ∀ c : Char, c.toNat < 128 → capital c = [c.toUpper]

/-- A word with a capital at the start. -/
def capitalized : List Char → List Char
  | [] => []
  | c :: rest => c.toUpper :: rest

/-- The rule for capitals that is in use is the usual one on ASCII. -/
theorem usualOnAscii_capital : UsualOnAscii Text.capital := by
  intro c hc
  exact of_ascii c hc (by decide +kernel)

/-- **The exported identifier is made from the stem** if the name starts in ASCII. There a capital and the
replacement of a character can be taken in either order, and a digit is its own capital, so the guard against
digits comes to the same before and after. -/
theorem exportedBy_eq {capital : Char → List Char} (usual : UsualOnAscii capital) {name : List Char}
    (ascii : StartsInAscii name) :
    exportedBy capital name = guardKeyword (capitalized (stem name)) := by
  rw [exportedBy, sanitize_eq]
  cases name with
  | nil => rfl
  | cons c rest =>
    have hc : c.toNat < 128 := ascii c rfl
    have hall : wordCharacter c.toUpper = (wordCharacter c).toUpper ∧
        Text.isDigit (wordCharacter c).toUpper = Text.isDigit (wordCharacter c) ∧
        (Text.isDigit (wordCharacter c) = true → (wordCharacter c).toUpper = wordCharacter c) :=
      of_ascii c hc (by decide)
    obtain ⟨hword, hdigit, hkeep⟩ := hall
    rw [capitalizeBy, usual c hc, List.singleton_append, stem_cons, stem_cons, hword, guardDigit, guardDigit,
      hdigit]
    split
    · next h =>
      rw [hkeep h]
      rfl
    · rfl

end ExtensionKit.Identifier
