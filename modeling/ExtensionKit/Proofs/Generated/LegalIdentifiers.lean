import ExtensionKit.Proofs.Generated.Identifiers

/-!
# Legal identifiers

Whatever the declared name, the identifier that is made of it is one of the language: a word of letters, digits
and underscores that is not reserved, or a reserved word with the mark of a raw identifier. Exported
identifiers are never raw. They start with a capital or an underscore, and all reserved words that do so have
no raw form, so they get an underscore at the end; and so they can be taken for names again, or have something
put after them.

Of the rule for capitals nothing is assumed but what it does to ASCII and that it makes no small letters of
ASCII (`Identifier.CapitalRule`). `Identifier.exportedBy_legal` is the main statement.
-/

namespace ExtensionKit.Identifier

/-- A rule for capitals: the usual one on ASCII, and it gives every character a capital form that does not
begin with a small letter of ASCII. -/
structure CapitalRule (capital : Char → List Char) : Prop where
  /-- small letters of ASCII become capitals, and all else of ASCII is left alone -/
  usual : UsualOnAscii capital
  /-- there is a first character, which is no small letter -/
  large : ∀ c, ∃ d ds, capital c = d :: ds ∧ ¬('a' ≤ d ∧ d ≤ 'z')

/-- Whether a character is a capital of ASCII or an underscore. -/
def isCapitalStart (c : Char) : Bool := ('A' ≤ c && c ≤ 'Z') || c == '_'

/-- Whether a character is a letter of ASCII or an underscore. -/
def isWordStart (c : Char) : Bool := ('a' ≤ c && c ≤ 'z') || isCapitalStart c

/-- A letter or an underscore, and then letters, digits and underscores. -/
structure IsWord (word : List Char) : Prop where
  /-- how it starts -/
  start : ∃ c rest, word = c :: rest ∧ isWordStart c = true
  /-- what it is made of -/
  all : ∀ c ∈ word, isWordCharacter c = true

/-- A word that is an identifier as it stands. -/
structure IsLegal (word : List Char) : Prop extends IsWord word where
  /-- it is no mere underscore -/
  notUnderscore : word ≠ ['_']
  /-- it is not reserved -/
  notKeyword : word ∉ keywords.map String.toList

/-- A reserved word with the mark of a raw identifier, if it may have it. -/
def IsRaw (ident : List Char) : Prop :=
  ∃ word ∈ keywords, word ∉ neverRaw ∧ ident = 'r' :: '#' :: word.toList

/-! ## Characters -/

theorem wordCharacter_eq_self {c : Char} (h : isWordCharacter c = true) : wordCharacter c = c := by
  rw [wordCharacter, if_pos h]

/-- A character that may stand in an identifier may stand at its start if it is no digit. -/
theorem isWordStart_of_not_isDigit {c : Char} (h : isWordCharacter c = true)
    (hdigit : Text.isDigit c = false) : isWordStart c = true := by
  simp only [isWordCharacter, hdigit, Bool.or_false] at h
  rwa [isWordStart, isCapitalStart, ← Bool.or_assoc]

/-- A character that may stand at the start is a capital or an underscore if it is no small letter. -/
theorem isCapitalStart_of_isWordStart {c : Char} (h : isWordStart c = true)
    (hsmall : ¬('a' ≤ c ∧ c ≤ 'z')) : isCapitalStart c = true := by
  rw [isWordStart, Bool.or_eq_true, Bool.and_eq_true, decide_eq_true_iff, decide_eq_true_iff] at h
  exact h.resolve_left hsmall

/-- A capital or an underscore is its own capital, and no digit. -/
theorem of_isCapitalStart {c : Char} (h : isCapitalStart c = true) :
    c.toNat < 128 ∧ c.toUpper = c ∧ Text.isDigit c = false := by
  have hlt : c.toNat < 128 := by
    rw [isCapitalStart, Bool.or_eq_true, Bool.and_eq_true, decide_eq_true_iff, decide_eq_true_iff,
      beq_iff_eq] at h
    rcases h with ⟨-, hle⟩ | rfl
    · exact Nat.lt_of_le_of_lt hle (by decide)
    · decide
  have hall : isCapitalStart c = true → c.toUpper = c ∧ Text.isDigit c = false :=
    of_ascii c hlt (by decide)
  exact ⟨hlt, hall h⟩

/-! ## Stems -/

/-- How the stem of a name with a given first character starts. -/
def stemStart (c : Char) : Char := if Text.isDigit (wordCharacter c) then '_' else wordCharacter c

theorem exists_stem_cons (c : Char) (rest : List Char) : ∃ tail, stem (c :: rest) = stemStart c :: tail := by
  rw [stem_cons, guardDigit, stemStart]
  split
  · exact ⟨_, rfl⟩
  · exact ⟨_, rfl⟩

/-- A stem starts with a letter or an underscore. -/
theorem isWordStart_stemStart (c : Char) : isWordStart (stemStart c) = true := by
  rw [stemStart]
  split
  · rfl
  · next hdigit =>
    exact isWordStart_of_not_isDigit (isWordCharacter_wordCharacter c) (Bool.eq_false_iff.mpr hdigit)

theorem isCapitalStart_stemStart {c : Char} (h : ¬('a' ≤ c ∧ c ≤ 'z')) :
    isCapitalStart (stemStart c) = true := by
  refine isCapitalStart_of_isWordStart (isWordStart_stemStart c) ?_
  rw [stemStart]
  split
  · decide
  · rw [wordCharacter]
    split
    · exact h
    · decide

/-- **A stem is a word.** -/
theorem isWord_stem (name : List Char) : IsWord (stem name) := by
  refine ⟨?_, fun c hc => isWordCharacter_of_mem_stem hc⟩
  cases name with
  | nil => exact ⟨'_', "unnamed".toList, rfl, rfl⟩
  | cons c rest =>
    obtain ⟨tail, htail⟩ := exists_stem_cons c rest
    exact ⟨stemStart c, tail, htail, isWordStart_stemStart c⟩

/-- A name with its first character in capitals has a stem that starts with a capital or an underscore. -/
theorem exists_stem_capitalizeBy {capital : Char → List Char} (rule : CapitalRule capital)
    (name : List Char) : ∃ c tail, stem (capitalizeBy capital name) = c :: tail ∧ isCapitalStart c = true := by
  cases name with
  | nil => exact ⟨'_', "unnamed".toList, rfl, rfl⟩
  | cons c rest =>
    obtain ⟨d, ds, hd, hlarge⟩ := rule.large c
    obtain ⟨tail, htail⟩ := exists_stem_cons d (ds ++ rest)
    refine ⟨stemStart d, tail, ?_, isCapitalStart_stemStart hlarge⟩
    rw [capitalizeBy, hd, List.cons_append, htail]

/-! ## Reserved words -/

/-- What cannot be raw is a reserved word or a mere underscore. -/
theorem IsLegal.notMem_neverRaw {word : List Char} (h : IsLegal word) :
    word ∉ neverRaw.map String.toList := by
  have hall : ∀ w ∈ neverRaw.map String.toList, w = ['_'] ∨ w ∈ keywords.map String.toList := by decide
  intro hmem
  rcases hall word hmem with hunderscore | hkeyword
  · exact h.notUnderscore hunderscore
  · exact h.notKeyword hkeyword

/-- A legal identifier stays as it is. -/
theorem IsLegal.guardKeyword_eq {word : List Char} (h : IsLegal word) : guardKeyword word = word := by
  rw [guardKeyword, if_neg h.notMem_neverRaw, if_neg h.notKeyword]

/-- A word that cannot be raw is legal with an underscore after it. -/
theorem IsWord.isLegal_underscore {word : List Char} (h : IsWord word)
    (hraw : word ∈ neverRaw.map String.toList) : IsLegal (word ++ ['_']) := by
  have hall : ∀ w ∈ neverRaw.map String.toList,
      w ++ ['_'] ≠ ['_'] ∧ w ++ ['_'] ∉ keywords.map String.toList := by decide
  obtain ⟨hunderscore, hkeyword⟩ := hall word hraw
  obtain ⟨c, rest, rfl, hc⟩ := h.start
  refine ⟨⟨⟨c, rest ++ ['_'], rfl, hc⟩, ?_⟩, hunderscore, hkeyword⟩
  intro d hd
  rcases List.mem_append.mp hd with hd | hd
  · exact h.all d hd
  · rw [List.mem_singleton.mp hd]
    rfl

/-- A word that is neither reserved nor a mere underscore is legal. -/
theorem IsWord.isLegal {word : List Char} (h : IsWord word) (hraw : word ∉ neverRaw.map String.toList)
    (hkeyword : word ∉ keywords.map String.toList) : IsLegal word :=
  ⟨h, fun hunderscore => hraw (hunderscore ▸ by decide), hkeyword⟩

/-- **A word that is kept clear of the reserved ones** is raw or legal. -/
theorem IsWord.isRaw_or_isLegal {word : List Char} (h : IsWord word) :
    IsRaw (guardKeyword word) ∨ IsLegal (guardKeyword word) := by
  rw [guardKeyword]
  split
  · next hraw => exact .inr (h.isLegal_underscore hraw)
  · next hraw =>
    split
    · next hkeyword =>
      obtain ⟨k, hk, rfl⟩ := List.mem_map.mp hkeyword
      exact .inl ⟨k, hk, fun hnever => hraw (List.mem_map_of_mem hnever), rfl⟩
    · next hkeyword => exact .inr (h.isLegal hraw hkeyword)

/-- **A word that starts with a capital or an underscore** is never made raw. -/
theorem IsWord.isLegal_guardKeyword {word tail : List Char} {c : Char} (h : IsWord word)
    (hword : word = c :: tail) (hc : isCapitalStart c = true) :
    IsLegal (guardKeyword word) ∧ ∃ tail', guardKeyword word = c :: tail' := by
  have hall : ∀ w ∈ keywords.map String.toList, w.head?.all isCapitalStart = true →
      w ∈ neverRaw.map String.toList := by decide
  rw [guardKeyword]
  split
  · next hraw =>
    exact ⟨h.isLegal_underscore hraw, tail ++ ['_'], by rw [hword, List.cons_append]⟩
  · next hraw =>
    have hkeyword : word ∉ keywords.map String.toList :=
      fun hmem => hraw (hall word hmem (by rw [hword]; exact hc))
    rw [if_neg hkeyword]
    exact ⟨h.isLegal hraw hkeyword, tail, hword⟩

/-- A word with a capital somewhere in a suffix is not reserved. -/
theorem IsWord.isLegal_append {word suffix : List Char} (h : IsWord word)
    (hall : suffix.all isWordCharacter = true) (hcapital : suffix.any Char.isUpper = true) :
    IsLegal (word ++ suffix) := by
  have hsmall : ∀ w ∈ keywords.map String.toList, w.tail.any Char.isUpper = false := by decide
  obtain ⟨c, rest, rfl, hc⟩ := h.start
  have htail : (rest ++ suffix).any Char.isUpper = true := by
    rw [List.any_append, hcapital, Bool.or_true]
  refine ⟨⟨⟨c, rest ++ suffix, rfl, hc⟩, ?_⟩, ?_, ?_⟩
  · intro e he
    rcases List.mem_append.mp he with he | he
    · exact h.all e he
    · exact List.all_eq_true.mp hall e he
  · intro hunderscore
    have hnil : rest ++ suffix = [] := (List.cons.inj hunderscore).2
    rw [hnil] at htail
    cases htail
  · intro hmem
    exact Bool.false_ne_true ((hsmall _ hmem).symm.trans htail)

/-! ## Exported identifiers -/

variable {capital : Char → List Char}

/-- **Exported identifiers are legal**, with a capital or an underscore at the start. -/
theorem isLegal_exportedBy (rule : CapitalRule capital) (name : List Char) :
    IsLegal (exportedBy capital name) ∧
      ∃ c tail, exportedBy capital name = c :: tail ∧ isCapitalStart c = true := by
  obtain ⟨c, tail, hstem, hc⟩ := exists_stem_capitalizeBy rule name
  obtain ⟨legal, tail', heq⟩ := (isWord_stem (capitalizeBy capital name)).isLegal_guardKeyword hstem hc
  rw [exportedBy, sanitize_eq]
  exact ⟨legal, c, tail', heq, hc⟩

/-- **A legal identifier with a capital or an underscore at the start** is its own exported identifier. -/
theorem exportedBy_eq_self (rule : CapitalRule capital) {word tail : List Char} {c : Char}
    (legal : IsLegal word) (hword : word = c :: tail) (hc : isCapitalStart c = true) :
    exportedBy capital word = word := by
  obtain ⟨hascii, hupper, hdigit⟩ := of_isCapitalStart hc
  have hall : ∀ d ∈ c :: tail, wordCharacter d = d :=
    fun d hd => wordCharacter_eq_self (legal.all d (hword ▸ hd))
  have hmap : (c :: tail).map wordCharacter = c :: tail :=
    (List.map_congr_left hall).trans (List.map_id _)
  have hstem : stem word = word := by
    rw [hword, stem_cons, ← List.map_cons, hmap, guardDigit, if_neg (Bool.eq_false_iff.mp hdigit)]
  have hcapital : capitalizeBy capital word = word := by
    rw [hword, capitalizeBy, rule.usual c hascii, hupper, List.singleton_append]
  rw [exportedBy, hcapital, sanitize_eq, hstem, legal.guardKeyword_eq]

/-- The rule for capitals that is in use assumes no more than that. -/
theorem capitalRule_capital : CapitalRule Text.capital := by
  refine ⟨usualOnAscii_capital, fun c => ?_⟩
  by_cases hascii : c.toNat < 128
  · have hlarge : ¬('a' ≤ c.toUpper ∧ c.toUpper ≤ 'z') :=
      of_ascii c hascii (by decide)
    exact ⟨c.toUpper, [], usualOnAscii_capital c hascii, hlarge⟩
  · have hlarge : ¬('a' ≤ c ∧ c ≤ 'z') := fun hc => hascii (Nat.lt_of_le_of_lt hc.2 (by decide))
    rw [Text.capital, if_neg hlarge]
    split
    · next codes hlookup =>
      have htable : ∀ entry ∈ Text.longCapitals, ∃ n ∈ entry.2.head?,
          ¬('a' ≤ Char.ofNat n ∧ Char.ofNat n ≤ 'z') := by decide
      obtain ⟨before, after, hsplit, -⟩ := List.lookup_eq_some_iff.mp hlookup
      have hentry : (c.toNat, codes) ∈ Text.longCapitals :=
        hsplit ▸ List.mem_append_right _ (List.mem_cons_self ..)
      obtain ⟨n, hhead, hn⟩ := htable _ hentry
      obtain ⟨ns, rfl⟩ : ∃ ns, codes = n :: ns := List.head?_eq_some_iff.mp hhead
      exact ⟨Char.ofNat n, ns.map Char.ofNat, List.map_cons, hn⟩
    · exact ⟨c, [], rfl, hlarge⟩

/-- What is put after exported identifiers to name the types of artifacts. -/
def typeSuffixes : List String := ["Settings", "HandlerSettings", "Input", "Output", "Func"]

/-- **All identifiers are legal.** The plain identifier of a name is a reserved word in its raw form, of those
that have one, or a legal word. The exported one is always a legal word, and starts with a capital or an
underscore, whatever the rule for capitals does outside ASCII. It is its own exported identifier, and it stays
legal with any of the words after it that type names end in. -/
theorem exportedBy_legal (rule : CapitalRule capital) (name : String) :
    (IsRaw (plain name).toList ∨ IsLegal (plain name).toList) ∧
    let ident := exportedBy capital name.toList
    IsLegal ident ∧
    (∃ c tail, ident = c :: tail ∧ isCapitalStart c = true) ∧
    exportedBy capital ident = ident ∧
    ∀ suffix ∈ typeSuffixes, IsLegal (ident ++ suffix.toList) := by
  refine ⟨?_, ?_⟩
  · rw [plain, String.toList_ofList, sanitize_eq]
    exact (isWord_stem name.toList).isRaw_or_isLegal
  · intro ident
    obtain ⟨legal, c, tail, hident, hc⟩ := isLegal_exportedBy rule name.toList
    have hsuffix : ∀ suffix ∈ typeSuffixes, suffix.toList.all isWordCharacter = true ∧
        suffix.toList.any Char.isUpper = true := by decide
    refine ⟨legal, ⟨c, tail, hident, hc⟩, exportedBy_eq_self rule legal hident hc, ?_⟩
    intro suffix hmem
    obtain ⟨hall, hcapital⟩ := hsuffix suffix hmem
    exact legal.isLegal_append hall hcapital

/-- The name `self` cannot be raw, and neither can it with a capital. -/
theorem exportedBy_legal_self :
    CapitalRule Text.capital ∧ exported "self" = "Self_" ∧ IsLegal "Self_".toList ∧
      exported "Self_" = "Self_" ∧ IsLegal "Self_HandlerSettings".toList := by
  have hself : exportedBy Text.capital "self".toList = "Self_".toList := by decide
  obtain ⟨-, legal, -, hagain, hsuffix⟩ := exportedBy_legal capitalRule_capital "self"
  rw [hself] at legal hagain hsuffix
  have hlegal := hsuffix "HandlerSettings" (by decide)
  exact ⟨capitalRule_capital, congrArg String.ofList hself, legal, congrArg String.ofList hagain, hlegal⟩

end ExtensionKit.Identifier
