import ExtensionKit.Proofs.Text.Numeral
import ExtensionKit.Text.Literal
import Mathlib.Tactic.SplitIfs

/-!
# Literals read back

The rules by which generated source is read: where a literal ends and which text it stands for. A reader
goes over the characters after the opening quote one by one (`Literal.step`). A quote ends the literal
unless an escape takes it; a carriage return must be part of a line break, of which only the line feed
counts; an escaped line break is left out with the white space after it. Format strings have one more
rule: braces come in pairs, each of which stands for one, and a single one is a placeholder or an error.

* A literal that was made of a text is read as that text, whatever follows (`Literal.denotes_quote`).
* Characters between quotes stand for themselves, whatever follows, exactly if there is no quote, no
  backslash and no carriage return among them, and in a format string no brace
  (`Literal.read_formatted_iff`).
-/

namespace ExtensionKit.Text.Literal

/-! ## The rules -/

/-- Where a reader stands in a literal. -/
inductive Place where
  /-- in the text -/
  | text
  /-- after a carriage return, which only a line feed may follow -/
  | carriageReturn
  /-- after a backslash -/
  | escape
  /-- after a backslash and a carriage return -/
  | escapedReturn
  /-- after an escaped line break, in white space that is left out -/
  | indentation
  /-- before the digits of a byte -/
  | byte
  /-- after the first digit of a byte -/
  | byteDigit (high : Nat)
  /-- before the braces with the number of a character -/
  | scalarStart
  /-- in these braces, after some digits -/
  | scalar (digits value : Nat)
deriving DecidableEq

/-- What a reader does at a character. -/
inductive Action where
  /-- the literal ends -/
  | close
  /-- the literal is malformed -/
  | refuse
  /-- the text goes on, by one character at most -/
  | go (taken : Option Char) (next : Place)
deriving DecidableEq

/-- The character of an escape that is one letter. -/
def letter? (c : Char) : Option Char :=
  if c = 'n' then some '\n'
  else if c = 'r' then some '\r'
  else if c = 't' then some '\t'
  else if c = '0' then some (Char.ofNat 0)
  else if c = '\\' ∨ c = '"' ∨ c.toNat = 0x27 then some c
  else none

/-- A step in the text. -/
def textStep (c : Char) : Action :=
  if c = '"' then .close
  else if c = '\\' then .go none .escape
  else if c = '\r' then .go none .carriageReturn
  else .go (some c) .text

/-- A step after a backslash. -/
def escapeStep (c : Char) : Action :=
  match letter? c with
  | some d => .go (some d) .text
  | none =>
    if c = '\n' then .go none .indentation
    else if c = '\r' then .go none .escapedReturn
    else if c = 'x' then .go none .byte
    else if c = 'u' then .go none .scalarStart
    else .refuse

/-- A step among the digits of the number of a character: there are one to six, and underscores may stand
after each of them. -/
def scalarStep (digits value : Nat) (c : Char) : Action :=
  match hexDigitValue? c with
  | some d => if digits < 6 then .go none (.scalar (digits + 1) (16 * value + d)) else .refuse
  | none =>
    if digits = 0 then .refuse
    else if c = '_' then .go none (.scalar digits value)
    else if c = '}' ∧ value.isValidChar then .go (some (Char.ofNat value)) .text
    else .refuse

/-- What a reader does, by the place where it stands. -/
def step : Place → Char → Action
  | .text, c => textStep c
  | .carriageReturn, c => if c = '\n' then .go (some '\n') .text else .refuse
  | .escape, c => escapeStep c
  | .escapedReturn, c => if c = '\n' then .go none .indentation else .refuse
  | .indentation, c => if c ∈ [' ', '\t', '\n', '\r'] then .go none .indentation else textStep c
  | .byte, c =>
    match hexDigitValue? c with
    | some d => if d < 8 then .go none (.byteDigit d) else .refuse
    | none => .refuse
  | .byteDigit high, c =>
    match hexDigitValue? c with
    | some d => .go (some (Char.ofNat (16 * high + d))) .text
    | none => .refuse
  | .scalarStart, c => if c = '{' then .go none (.scalar 0 0) else .refuse
  | .scalar digits value, c => scalarStep digits value c

/-- Reads a literal from a place on: the text up to the closing quote, and what follows the quote. -/
def read : Place → List Char → Option (List Char × List Char)
  | _, [] => none
  | place, c :: rest =>
    match step place c with
    | .close => some ([], rest)
    | .refuse => none
    | .go taken next => (read next rest).map fun (text, after) => (taken.toList ++ text, after)

/-- What is written for a format string without placeholders. There is nothing if it has one, or a brace
by itself. -/
def formatted? : List Char → Option (List Char)
  | [] => some []
  | c :: rest =>
    if c = '{' ∨ c = '}' then
      match rest with
      | d :: rest => if d = c then (formatted? rest).map (c :: ·) else none
      | [] => none
    else (formatted? rest).map (c :: ·)

/-- A piece of source is a literal of a text: it is read as the text up to its end, whatever follows. -/
def Denotes (piece text : String) : Prop :=
  ∃ body, piece = "\"" ++ body ∧
    ∀ rest : String, read .text (body ++ rest).toList = some (text.toList, rest.toList)

/-- A character that stands for itself between quotes. -/
def IsPlain (c : Char) : Prop := c ≠ '"' ∧ c ≠ '\\' ∧ c ≠ '\r'

/-- A character that stands for itself in a format string. -/
def IsPlainInFormat (c : Char) : Prop := IsPlain c ∧ c ≠ '{' ∧ c ≠ '}'

instance (c : Char) : Decidable (IsPlain c) := inferInstanceAs (Decidable (_ ∧ _))

instance (c : Char) : Decidable (IsPlainInFormat c) := inferInstanceAs (Decidable (_ ∧ _))

/-! ## What is made of a text -/

/-- Reading goes on where the step at a character says. -/
theorem read_go {place next : Place} {c : Char} {taken : Option Char} (rest : List Char)
    (h : step place c = .go taken next) :
    read place (c :: rest) = (read next rest).map fun (text, after) => (taken.toList ++ text, after) := by
  rw [read, h]

/-- Where nothing is taken, reading goes on at the next place. -/
theorem read_go_none {place next : Place} {c : Char} (rest : List Char)
    (h : step place c = .go none next) : read place (c :: rest) = read next rest := by
  rw [read_go rest h]
  exact Option.map_id' ..

theorem read_go_some {place : Place} {c d : Char} (rest : List Char)
    (h : step place c = .go (some d) .text) :
    read place (c :: rest) = (read .text rest).map fun (text, after) => (d :: text, after) :=
  read_go rest h

/-- Digits of the number of a character are read one after another. -/
theorem read_scalar {digits value result : Nat} {ds : List Char} (rest : List Char)
    (hvalue : ds.foldlM (fun n c => (hexDigitValue? c).map (16 * n + ·)) value = some result)
    (hlength : digits + ds.length ≤ 6) :
    read (.scalar digits value) (ds ++ rest) = read (.scalar (digits + ds.length) result) rest := by
  induction ds generalizing digits value with
  | nil =>
    obtain rfl := Option.some.inj hvalue
    rfl
  | cons c ds ih =>
    rw [List.length_cons] at hlength
    rw [List.foldlM_cons] at hvalue
    obtain ⟨n, hn, hrest⟩ := Option.bind_eq_some_iff.mp hvalue
    obtain ⟨d, hd, rfl⟩ := Option.map_eq_some_iff.mp hn
    have hstep : step (.scalar digits value) c = .go none (.scalar (digits + 1) (16 * value + d)) := by
      rw [step, scalarStep, hd]
      exact if_pos (by omega)
    rw [List.cons_append, read_go_none _ hstep, ih hrest (by omega), List.length_cons,
      Nat.add_assoc, Nat.add_comm 1]

/-- The number of a character is read as the character. -/
theorem read_scalar_hexadecimal (c : Char) (rest : List Char) :
    read .scalarStart ('{' :: (hexadecimal c.toNat ++ '}' :: rest)) =
      (read .text rest).map fun (text, after) => (c :: text, after) := by
  have hbound : c.toNat < 16 ^ 6 := by
    rcases c.valid with h | ⟨-, h⟩
    · exact Nat.lt_of_lt_of_le h (by decide)
    · exact Nat.lt_of_lt_of_le h (by decide)
  have hlength : (hexadecimal c.toNat).length ≤ 6 := length_hexadecimal_le hbound
  have hopen : step .scalarStart '{' = .go none (.scalar 0 0) := rfl
  rw [read_go_none _ hopen,
    read_scalar _ (hexadecimalValue?_hexadecimal c.toNat) (by omega), Nat.zero_add]
  have hsome : (hexadecimal c.toNat).length ≠ 0 := by
    rw [Ne, List.length_eq_zero_iff]
    exact hexadecimal_ne_nil c.toNat
  have hbrace : hexDigitValue? '}' = none := by decide
  have hclose : step (.scalar (hexadecimal c.toNat).length c.toNat) '}' = .go (some c) .text := by
    rw [step, scalarStep, hbrace]
    simp only [if_neg hsome]
    rw [if_neg (by decide), if_pos ⟨trivial, c.valid⟩, Char.ofNat_toNat]
  exact read_go_some rest hclose

/-- **One character is read back**, and reading goes on after it. -/
theorem read_escape (c : Char) (rest : List Char) :
    read .text (escape c ++ rest) =
      (read .text rest).map fun (text, after) => (c :: text, after) := by
  have hescape : step .text '\\' = .go none .escape := rfl
  rw [escape]
  split_ifs with hquote hbackslash hn hr ht hzero hnumber
  · rw [hquote]
    exact (read_go_none _ hescape).trans (read_go_some rest rfl)
  · rw [hbackslash]
    exact (read_go_none _ hescape).trans (read_go_some rest rfl)
  · rw [hn]
    exact (read_go_none _ hescape).trans (read_go_some rest rfl)
  · rw [hr]
    exact (read_go_none _ hescape).trans (read_go_some rest rfl)
  · rw [ht]
    exact (read_go_none _ hescape).trans (read_go_some rest rfl)
  · rw [← Char.ofNat_toNat c, hzero]
    exact (read_go_none _ hescape).trans (read_go_some rest rfl)
  · have hletter : step .escape 'u' = .go none .scalarStart := rfl
    rw [List.append_assoc, List.append_assoc]
    exact (read_go_none _ hescape).trans
      ((read_go_none _ hletter).trans (read_scalar_hexadecimal c rest))
  · have hself : step .text c = .go (some c) .text := by
      rw [step, textStep, if_neg hquote, if_neg hbackslash, if_neg hr]
    exact read_go_some rest hself

/-- **Escaped characters are read back**, up to the closing quote. -/
theorem read_escaped (cs rest : List Char) :
    read .text (cs.flatMap escape ++ '"' :: rest) = some (cs, rest) := by
  induction cs with
  | nil => rfl
  | cons c cs ih => rw [List.flatMap_cons, List.append_assoc, read_escape, ih, Option.map_some]

/-- **A literal made of a text is one of that text.** -/
theorem denotes_quote (s : String) : Denotes (quote s) s := by
  refine ⟨String.ofList (s.toList.flatMap escape ++ ['"']), ?_, fun rest => ?_⟩
  · rw [quote, encode, ← String.toList_inj, String.toList_append]
    simp only [String.toList_ofList]
    rfl
  · rw [String.toList_append, String.toList_ofList, List.append_assoc]
    exact read_escaped s.toList rest.toList

/-- **Where a literal ends and what it stands for** is told by the text that begins with it. -/
theorem Denotes.inj {piece piece' text text' rest rest' : String} (h : Denotes piece text)
    (h' : Denotes piece' text') (heq : piece ++ rest = piece' ++ rest') : text = text' ∧ rest = rest' := by
  obtain ⟨body, rfl, hread⟩ := h
  obtain ⟨body', rfl, hread'⟩ := h'
  rw [String.append_assoc, String.append_assoc, String.append_right_inj] at heq
  have hsame := hread rest
  rw [heq, hread' rest'] at hsame
  obtain ⟨htext, hrest⟩ := Prod.mk.inj (Option.some.inj hsame)
  exact ⟨(String.toList_inj.mp htext).symm, (String.toList_inj.mp hrest).symm⟩

/-! ## What stands for itself -/

theorem eq_of_textStep_close {c : Char} (h : textStep c = .close) : c = '"' := by
  rw [textStep] at h
  split_ifs at h with hquote
  exact hquote

theorem escapeStep_ne_close (c : Char) : escapeStep c ≠ .close := by
  rw [escapeStep]
  split
  · nofun
  · split_ifs <;> nofun

theorem scalarStep_ne_close (digits value : Nat) (c : Char) : scalarStep digits value c ≠ .close := by
  rw [scalarStep]
  split <;> split_ifs <;> nofun

/-- Only a quote ends a literal. -/
theorem eq_of_step_close {place : Place} {c : Char} (h : step place c = .close) : c = '"' := by
  cases place with
  | text => exact eq_of_textStep_close h
  | indentation =>
    rw [step] at h
    split_ifs at h
    exact eq_of_textStep_close h
  | carriageReturn | escapedReturn | scalarStart =>
    rw [step] at h
    split_ifs at h
  | escape => exact absurd h (escapeStep_ne_close c)
  | scalar digits value => exact absurd h (scalarStep_ne_close digits value c)
  | byte =>
    rw [step] at h
    split at h
    · split_ifs at h
    · cases h
  | byteDigit high =>
    rw [step] at h
    split at h <;> cases h

/-- What is taken in the text is taken as it is. -/
theorem textStep_some {c d : Char} {next : Place} (h : textStep c = .go (some d) next) :
    IsPlain c ∧ d = c ∧ next = .text := by
  rw [textStep] at h
  split_ifs at h with hquote hbackslash hreturn
  · cases h
  · cases h
  · cases h
    exact ⟨⟨hquote, hbackslash, hreturn⟩, rfl, rfl⟩

/-- **A text is no longer than what it is read from**, and as long only if it is the same. -/
theorem read_length {place : Place} {cs text rest : List Char} (h : read place cs = some (text, rest)) :
    ∃ body, cs = body ++ '"' :: rest ∧ text.length ≤ body.length ∧
      (place = .text → text.length = body.length → text = body ∧ ∀ c ∈ body, IsPlain c) := by
  induction cs generalizing place text with
  | nil => cases h
  | cons c cs ih =>
    rw [read] at h
    split at h
    · next hclose =>
      obtain ⟨rfl, rfl⟩ := Prod.mk.inj (Option.some.inj h)
      rw [eq_of_step_close hclose]
      exact ⟨[], rfl, Nat.le_refl 0, fun _ _ => ⟨rfl, nofun⟩⟩
    · cases h
    · next taken next hstep =>
      obtain ⟨⟨more, after⟩, hmore, heq⟩ := Option.map_eq_some_iff.mp h
      obtain ⟨rfl, rfl⟩ := Prod.mk.inj heq
      obtain ⟨body, rfl, hle, hsame⟩ := ih hmore
      refine ⟨c :: body, rfl, ?_, ?_⟩
      · cases taken <;> simp <;> omega
      · rintro rfl hlength
        cases taken with
        | none =>
          simp at hlength
          omega
        | some d =>
          obtain ⟨hplain, rfl, rfl⟩ := textStep_some hstep
          obtain ⟨rfl, hall⟩ := hsame rfl (Nat.succ.inj hlength)
          refine ⟨rfl, fun c' hc' => ?_⟩
          rcases List.mem_cons.mp hc' with rfl | hc'
          · exact hplain
          · exact hall c' hc'

/-- Escapes by number, an escaped line break with its indentation, and what follows the literal. -/
example : read .text "\\u\x7b1f_600\x7d\\x41\\\n  b\" c".toList = some ("😀Ab".toList, " c".toList) := by
  rw [String.toList_ofList, String.toList_ofList, String.toList_ofList]
  decide

theorem read_of_plain {cs : List Char} (h : ∀ c ∈ cs, IsPlain c) (rest : List Char) :
    read .text (cs ++ '"' :: rest) = some (cs, rest) := by
  induction cs with
  | nil => rfl
  | cons c cs ih =>
    obtain ⟨hquote, hbackslash, hreturn⟩ := h c (List.mem_cons_self ..)
    have hself : step .text c = .go (some c) .text := by
      rw [step, textStep, if_neg hquote, if_neg hbackslash, if_neg hreturn]
    rw [List.cons_append, read_go_some _ hself, ih fun d hd => h d (List.mem_cons_of_mem c hd),
      Option.map_some]

/-- **What is written for a format string is no longer than it**, and as long only if it is the same. -/
theorem formatted?_length {cs text : List Char} (h : formatted? cs = some text) :
    text.length ≤ cs.length ∧
      (text.length = cs.length → text = cs ∧ ∀ c ∈ cs, c ≠ '{' ∧ c ≠ '}') := by
  fun_induction formatted? cs generalizing text with
  | case1 =>
    obtain rfl := Option.some.inj h
    exact ⟨Nat.le_refl 0, fun _ => ⟨rfl, nofun⟩⟩
  | case2 c hbrace rest ih =>
    obtain ⟨more, hmore, rfl⟩ := Option.map_eq_some_iff.mp h
    have hle := (ih hmore).1
    simp only [List.length_cons]
    exact ⟨by omega, fun hlength => by omega⟩
  | case3 => cases h
  | case4 => cases h
  | case5 c rest hbrace ih =>
    obtain ⟨more, hmore, rfl⟩ := Option.map_eq_some_iff.mp h
    obtain ⟨hle, hsame⟩ := ih hmore
    refine ⟨Nat.succ_le_succ hle, fun hlength => ?_⟩
    obtain ⟨rfl, hall⟩ := hsame (Nat.succ.inj hlength)
    refine ⟨rfl, fun d hd => ?_⟩
    rcases List.mem_cons.mp hd with rfl | hd
    · exact not_or.mp hbrace
    · exact hall d hd

theorem formatted?_of_plain {cs : List Char} (h : ∀ c ∈ cs, c ≠ '{' ∧ c ≠ '}') :
    formatted? cs = some cs := by
  induction cs with
  | nil => rfl
  | cons c cs ih =>
    have hc : ¬(c = '{' ∨ c = '}') := not_or.mpr (h c (List.mem_cons_self ..))
    rw [formatted?.eq_def]
    simp only [if_neg hc]
    rw [ih fun d hd => h d (List.mem_cons_of_mem c hd), Option.map_some]

/-- **When a format string is written as it stands between its quotes.** This does not depend on what
follows it. Neither reading nor formatting makes a text longer, so neither can have made it shorter. -/
theorem read_formatted_iff (cs rest : List Char) :
    (∃ text, read .text (cs ++ '"' :: rest) = some (text, rest) ∧ formatted? text = some cs) ↔
      ∀ c ∈ cs, IsPlainInFormat c := by
  constructor
  · rintro ⟨text, hread, hformat⟩
    obtain ⟨body, hbody, hle, hsame⟩ := read_length hread
    obtain rfl := List.append_cancel_right hbody
    obtain ⟨hle', hsame'⟩ := formatted?_length hformat
    obtain ⟨rfl, hplain⟩ := hsame rfl (by omega)
    exact fun c hc => ⟨hplain c hc, (hsame' rfl).2 c hc⟩
  · intro h
    exact ⟨cs, read_of_plain (fun c hc => (h c hc).1) rest, formatted?_of_plain fun c hc => (h c hc).2⟩

end ExtensionKit.Text.Literal
