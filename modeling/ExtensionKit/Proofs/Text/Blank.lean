import ExtensionKit.Proofs.List.Front
import ExtensionKit.Proofs.Text.Numeral
import ExtensionKit.Text.Blank
import Mathlib.Data.List.TakeWhile

/-!
# What trimming leaves

Trimming leaves a text as it is if neither its first nor its last character is white space, and it leaves
nothing exactly if there is nothing but white space. White space that is put around a text is trimmed with
what was there already (`trim_padded`).
-/

namespace ExtensionKit.Text

theorem trimStart_cons {c : Char} (h : isBlank c = false) (cs : List Char) :
    trimStart (c :: cs) = c :: cs := by
  rw [trimStart, List.dropWhile_cons, if_neg (by rw [h]; decide)]

theorem trimEnd_concat {c : Char} (h : isBlank c = false) (cs : List Char) :
    trimEnd (cs ++ [c]) = cs ++ [c] := by
  rw [trimEnd, List.reverse_append, List.reverse_singleton, List.singleton_append,
    List.dropWhile_cons, if_neg (by rw [h]; decide), List.reverse_cons, List.reverse_reverse]

theorem isBlank_of_isDigit {c : Char} (h : isDigit c = true) : isBlank c = false := by
  have hrange := toNat_of_isDigit h
  simp only [isBlank, Bool.or_eq_false_iff, Bool.and_eq_false_iff, beq_eq_false_iff_ne,
    decide_eq_false_iff_not]
  omega

/-- **A text between characters that are not white space** is not trimmed. -/
theorem trim_eq_self {cs before after : List Char} {c d : Char} (hfirst : cs = c :: after)
    (hlast : cs = before ++ [d]) (hc : isBlank c = false) (hd : isBlank d = false) : trim cs = cs := by
  rw [trim, hfirst, trimStart_cons hc, ← hfirst, hlast, trimEnd_concat hd]

theorem trimEnd_eq_nil_iff {cs : List Char} : trimEnd cs = [] ↔ ∀ c ∈ cs, isBlank c = true := by
  rw [trimEnd, List.reverse_eq_nil_iff, List.dropWhile_eq_nil_iff]
  exact forall_congr' fun c => imp_congr_left List.mem_reverse

/-- **A text is trimmed to nothing** exactly if all of it is white space. -/
theorem trim_eq_nil_iff {cs : List Char} : trim cs = [] ↔ ∀ c ∈ cs, isBlank c = true := by
  rw [trim, trimEnd_eq_nil_iff]
  constructor
  · intro h c hc
    rw [← List.takeWhile_append_dropWhile (p := isBlank) (l := cs)] at hc
    rcases List.mem_append.mp hc with hc | hc
    · exact List.mem_takeWhile_imp hc
    · exact h c hc
  · intro h c hc
    exact h c ((List.dropWhile_suffix isBlank).subset hc)

/-! ## White space around a text -/

variable {before after : List Char}

theorem trimStart_blank_append (h : ∀ c ∈ before, isBlank c = true) (cs : List Char) :
    trimStart (before ++ cs) = trimStart cs :=
  List.dropWhile_append_of_pos h

theorem trimEnd_append_blank (h : ∀ c ∈ after, isBlank c = true) (cs : List Char) :
    trimEnd (cs ++ after) = trimEnd cs := by
  rw [trimEnd, List.reverse_append,
    List.dropWhile_append_of_pos fun c hc => h c (List.mem_reverse.mp hc), trimEnd]

/-- **White space around a text** is trimmed. -/
theorem trim_padded (hbefore : ∀ c ∈ before, isBlank c = true) (hafter : ∀ c ∈ after, isBlank c = true)
    (cs : List Char) : trim (before ++ cs ++ after) = trim cs := by
  rw [trim, List.append_assoc, trimStart_blank_append hbefore, trim]
  by_cases hblank : trimStart cs = []
  · have hall : ∀ c ∈ cs ++ after, isBlank c = true :=
      List.forall_mem_append.mpr ⟨List.dropWhile_eq_nil_iff.mp hblank, hafter⟩
    have hnothing : trimStart (cs ++ after) = [] := List.dropWhile_eq_nil_iff.mpr hall
    rw [hnothing, hblank]
  · have hkept : trimStart (cs ++ after) = trimStart cs ++ after := dropWhile_append_of_ne_nil hblank after
    rw [hkept, trimEnd_append_blank hafter]

end ExtensionKit.Text
