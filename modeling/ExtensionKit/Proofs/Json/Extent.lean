import ExtensionKit.Proofs.Json.Reader
import ExtensionKit.Proofs.List.Front

/-!
# How far strings and numbers reach

What a reader makes of a text it makes of the part that it takes, and what follows may be exchanged.

* A string ends at its closing quote and an escape after a fixed number of characters. Their readers do not
  look at what follows at all (`IsDelimited`).
* A numeral goes on as far as it can. The reader of numbers does not look at what follows if it is something
  that stops a numeral (`IsLocal`).
-/

namespace ExtensionKit.Json

/-- A reader that makes what it makes of a text from the part that it takes, whatever follows. -/
def IsDelimited (read : List Char → Reading α) : Prop :=
  ∀ cs value rest, read cs = .ok (value, rest) →
    ∃ text, cs = text ++ rest ∧ ∀ after, read (text ++ after) = .ok (value, after)

/-- A reader that makes what it makes of a text from the part that it takes, whatever follows as long as no
numeral reaches into it. -/
def IsLocal (read : List Char → Reading α) : Prop :=
  ∀ cs value rest, read cs = .ok (value, rest) → ∃ text, cs = text ++ rest ∧ Reads read text value

/-- A reader that takes no empty text takes something. -/
theorem Reads.ne_nil {read : List Char → Reading α} {text : List Char} {value : α}
    (h : Reads read text value) (hnil : ∀ r, read [] ≠ .ok r) : text ≠ [] := by
  rintro rfl
  exact hnil _ (h [] stops_nil)

/-- What a local reader reads behind a first character is read alike whatever follows. -/
theorem IsLocal.behind {next read : List Char → Reading α} {c : Char} {value : α} {rest : List Char}
    (hlocal : IsLocal next) (hread : ∀ text, read (c :: text) = next text) {cs : List Char}
    (h : next cs = .ok (value, rest)) : ∃ text, c :: cs = text ++ rest ∧ Reads read text value := by
  obtain ⟨text, rfl, htext⟩ := hlocal _ _ _ h
  refine ⟨c :: text, rfl, fun after hstops => ?_⟩
  rw [List.cons_append, hread]
  exact htext after hstops

theorem IsDelimited.isLocal {read : List Char → Reading α} (h : IsDelimited read) : IsLocal read := by
  intro cs value rest hread
  obtain ⟨text, hcs, htext⟩ := h _ _ _ hread
  exact ⟨text, hcs, fun after _ => htext after⟩

/-- Inversion for one reader after another. -/
theorem Reading.andThen_eq_ok_iff {r : Reading α} {next : α → List Char → Reading β}
    {result : β × List Char} :
    r.andThen next = .ok result ↔ ∃ a rest, r = .ok (a, rest) ∧ next a rest = .ok result := by
  constructor
  · intro h
    rcases r with f | ⟨a, rest⟩
    · cases h
    · exact ⟨a, rest, rfl, h⟩
  · rintro ⟨a, rest, rfl, h⟩
    exact h

theorem isDelimited_ok (a : α) : IsDelimited fun cs => .ok (a, cs) := by
  intro cs value rest h
  cases h
  exact ⟨[], rfl, fun _ => rfl⟩

theorem isDelimited_failHere (cause : Cause) : IsDelimited (failHere cause : List Char → Reading α) :=
  nofun

/-- One delimited reader or another. -/
theorem IsDelimited.ite {read other : List Char → Reading α} {p : Prop} [Decidable p]
    (h : IsDelimited read) (hother : IsDelimited other) :
    IsDelimited fun cs => if p then read cs else other cs := by
  by_cases hp : p
  · simpa only [if_pos hp] using h
  · simpa only [if_neg hp] using hother

/-- One delimited reader after another. -/
theorem IsDelimited.andThen {read : List Char → Reading α} {next : α → List Char → Reading β}
    (h : IsDelimited read) (hnext : ∀ a, IsDelimited (next a)) :
    IsDelimited fun cs => (read cs).andThen next := by
  intro cs value rest hread
  obtain ⟨a, between, hfirst, hsecond⟩ := Reading.andThen_eq_ok_iff.mp hread
  obtain ⟨text, rfl, htext⟩ := h _ _ _ hfirst
  obtain ⟨more, rfl, hmore⟩ := hnext a _ _ _ hsecond
  refine ⟨text ++ more, (List.append_assoc ..).symm, fun after => ?_⟩
  rw [List.append_assoc]
  exact Reading.andThen_eq_ok_iff.mpr ⟨a, _, htext _, hmore after⟩

/-! ## Strings -/

theorem isDelimited_readHex : IsDelimited readHex := by
  intro cs n rest h
  rw [readHex.eq_def] at h
  extract_lets invalid at h
  have hinvalid : invalid ≠ .ok (n, rest) := by
    intro hcontra
    simp only [invalid] at hcontra
    split at hcontra <;> cases hcontra
  clear_value invalid
  split at h
  · next a b c d digits =>
    split at h
    · next ha hb hc hd =>
      cases h
      refine ⟨[a, b, c, d], rfl, fun after => ?_⟩
      simp only [readHex, List.cons_append, List.nil_append, ha, hb, hc, hd]
    · exact absurd h hinvalid
  · exact absurd h hinvalid

theorem isDelimited_readLowSurrogate (high : Nat) : IsDelimited (readLowSurrogate high) := by
  intro cs c rest h
  rw [readLowSurrogate.eq_def] at h
  split at h
  · cases h
  · cases h
  · obtain ⟨text, rfl, htext⟩ := isDelimited_readHex.andThen
      (fun low => (isDelimited_ok _).ite (isDelimited_failHere _)) _ _ _ h
    exact ⟨'\\' :: 'u' :: text, rfl, htext⟩
  · cases h
  · cases h

theorem isDelimited_readEscape : IsDelimited readEscape := by
  intro cs c rest h
  rw [readEscape.eq_def] at h
  split at h
  case h_10 digits =>
    obtain ⟨text, rfl, htext⟩ := isDelimited_readHex.andThen
      (fun code => (isDelimited_failHere _).ite
        ((isDelimited_readLowSurrogate code).ite (isDelimited_ok _))) _ _ _ h
    exact ⟨'u' :: text, rfl, htext⟩
  case h_1 => cases h
  case h_11 => cases h
  all_goals
    cases h
    exact ⟨[_], rfl, fun _ => rfl⟩

/-- The characters of a string are taken up to the quote, with any bound that is large enough. -/
theorem exists_of_readCharacters {bound : Nat} {cs content rest : List Char}
    (h : readCharacters bound cs = .ok (content, rest)) :
    ∃ text, cs = text ++ '"' :: rest ∧ ∀ bound' after, text.length < bound' →
      readCharacters bound' (text ++ '"' :: after) = .ok (content, after) := by
  fun_induction readCharacters bound cs generalizing content rest with
  | case1 => cases h
  | case2 => cases h
  | case3 =>
    cases h
    refine ⟨[], rfl, fun bound' after hbound' => ?_⟩
    obtain ⟨b, rfl⟩ := Nat.exists_eq_add_one.mpr hbound'
    rfl
  | case4 bound cs ih =>
    obtain ⟨c, between, hescape, hlater⟩ := Reading.andThen_eq_ok_iff.mp h
    obtain ⟨cs', after, hcharacters, hresult⟩ := Reading.andThen_eq_ok_iff.mp hlater
    cases hresult
    obtain ⟨text, rfl, htext⟩ := isDelimited_readEscape _ _ _ hescape
    obtain ⟨more, rfl, hmore⟩ := ih _ hcharacters
    refine ⟨'\\' :: (text ++ more), by rw [List.cons_append, List.append_assoc], ?_⟩
    intro bound' after hbound'
    rw [List.length_cons, List.length_append] at hbound'
    obtain ⟨b, rfl⟩ : ∃ b, bound' = b + 1 := ⟨bound' - 1, by omega⟩
    rw [List.cons_append, List.append_assoc, readCharacters, htext, Reading.andThen_ok,
      hmore b after (by omega)]
    rfl
  | case5 => cases h
  | case6 bound c cs hquote hbackslash hcontrol ih =>
    obtain ⟨cs', after, hcharacters, hresult⟩ := Reading.andThen_eq_ok_iff.mp h
    cases hresult
    obtain ⟨text, rfl, htext⟩ := ih hcharacters
    refine ⟨c :: text, rfl, fun bound' after hbound' => ?_⟩
    rw [List.length_cons] at hbound'
    obtain ⟨b, rfl⟩ : ∃ b, bound' = b + 1 := ⟨bound' - 1, by omega⟩
    rw [List.cons_append, readCharacters, if_neg hcontrol, htext b after (by omega)]
    · rfl
    · exact hquote
    · exact hbackslash

/-- **A string is read alike** whatever follows its closing quote. -/
theorem isDelimited_readString : IsDelimited readString := by
  intro cs s rest h
  obtain ⟨content, after, hcharacters, hresult⟩ := Reading.andThen_eq_ok_iff.mp h
  cases hresult
  obtain ⟨text, rfl, htext⟩ := exists_of_readCharacters hcharacters
  refine ⟨text ++ ['"'], (List.append_cons ..), fun after => ?_⟩
  rw [← List.append_cons, readString, htext _ after, Reading.andThen_ok]
  rw [List.length_append]
  omega

/-! ## Numbers -/

/-- A reader that looks at nothing. -/
def IsBlind (read : List Char → Reading α) : Prop :=
  ∀ cs value rest, read cs = .ok (value, rest) → rest = cs ∧ ∀ after, read after = .ok (value, after)

/-- The reader of numbers that are no integers, as a function; at an argument, the kernel would compute the
number first. -/
theorem readFloat_eq : readFloat = fun negative digits exponent rest =>
    match numeral? negative digits exponent with
    | some x => .ok (.number (.float x), rest)
    | none => failHere .numberOutOfRange rest := rfl

theorem readFloat_of_some {negative : Bool} {digits : Nat} {exponent : Int} {x : Finite}
    (h : numeral? negative digits exponent = some x) (rest : List Char) :
    readFloat negative digits exponent rest = .ok (.number (.float x), rest) := by
  rw [readFloat_eq]
  simp only [h]

theorem readFloat_of_none {negative : Bool} {digits : Nat} {exponent : Int}
    (h : numeral? negative digits exponent = none) (rest : List Char) :
    readFloat negative digits exponent rest = failHere .numberOutOfRange rest := by
  rw [readFloat_eq]
  simp only [h]

/-- Whether a number is in range does not depend on what follows it. -/
theorem isBlind_readFloat (negative : Bool) (digits : Nat) (exponent : Int) :
    IsBlind (readFloat negative digits exponent) := by
  intro cs j rest h
  rcases hx : numeral? negative digits exponent with _ | x
  · rw [readFloat_of_none hx] at h
    cases h
  · rw [readFloat_of_some hx] at h
    cases h
    exact ⟨rfl, readFloat_of_some hx⟩

theorem isBlind_readInteger (negative : Bool) (whole : List Char) :
    IsBlind (readInteger negative whole) := by
  let value : Int := if negative then -(Text.numeralValue whole : Int) else Text.numeralValue whole
  by_cases h : (-0x8000000000000000 ≤ value ∧ value < 0x10000000000000000) ∧
      ¬ (negative = true ∧ Text.numeralValue whole = 0)
  · have hinteger : readInteger negative whole = fun rest => .ok (.number (.integer value h.1), rest) :=
      funext fun rest => dif_pos h
    intro cs j rest hread
    rw [hinteger] at hread ⊢
    cases hread
    exact ⟨rfl, fun _ => rfl⟩
  · have hfloat : readInteger negative whole =
        readFloat negative (absorbDigits whole []).1 (absorbDigits whole []).2 :=
      funext fun rest => dif_neg h
    rw [hfloat]
    exact isBlind_readFloat negative _ _

/-- Where an exponent becomes too large does not depend on what follows its digits. -/
theorem exponentOverflow?_append {n : Nat} {ds rest : List Char}
    (hrest : ∀ c cs, rest = c :: cs → Text.isDigit c = false) :
    exponentOverflow? n (ds ++ rest) = (exponentOverflow? n ds).map (· ++ rest) := by
  induction ds generalizing n with
  | nil =>
    cases rest with
    | nil => rfl
    | cons c cs =>
      have hstop : exponentOverflow? n (c :: cs) = none := by
        rw [exponentOverflow?, if_neg (by rw [hrest c cs rfl]; decide)]
      exact hstop
  | cons d ds ih =>
    simp only [List.cons_append, exponentOverflow?]
    split
    · split
      · rfl
      · exact ih
    · rfl

/-- Reads an exponent after its sign. -/
def readPower (negative : Bool) (digits : Nat) (exponent : Int) (down : Bool) :
    List Char → Reading Json
  | [] => failHere .endInValue []
  | c :: rest =>
    if Text.isDigit c then
      let run := c :: rest.takeWhile Text.isDigit
      let after := rest.dropWhile Text.isDigit
      match exponentOverflow? 0 (c :: rest) with
      | some blamed =>
        if digits ≠ 0 ∧ down = false then failHere .numberOutOfRange blamed
        else readFloat negative 0 0 after
      | none =>
        let n : Int := Text.numeralValue run
        readFloat negative digits (exponent + (if down then -n else n)) after
    else failAt .invalidNumber (c :: rest)

theorem readExponent_plus (negative : Bool) (digits : Nat) (exponent : Int) (cs : List Char) :
    readExponent negative digits exponent ('+' :: cs) = readPower negative digits exponent false cs := by
  cases cs <;> rfl

theorem readExponent_minus (negative : Bool) (digits : Nat) (exponent : Int) (cs : List Char) :
    readExponent negative digits exponent ('-' :: cs) = readPower negative digits exponent true cs := by
  cases cs <;> rfl

theorem readExponent_unsigned (negative : Bool) (digits : Nat) (exponent : Int) {cs : List Char}
    (h : ∀ c rest, cs = c :: rest → c ≠ '+' ∧ c ≠ '-') :
    readExponent negative digits exponent cs = readPower negative digits exponent false cs := by
  delta readExponent
  split
  next heq =>
  split at heq
  · next rest => exact absurd rfl (h _ rest rfl).1
  · next rest => exact absurd rfl (h _ rest rfl).2
  · cases heq
    cases cs <;> rfl

/-- Once the digits of an exponent are read, nothing more is looked at. -/
theorem readPower_digits (negative : Bool) (digits : Nat) (exponent : Int) (down : Bool) {c : Char}
    {ds : List Char} (hc : Text.isDigit c = true) (hds : ∀ d ∈ ds, Text.isDigit d = true) :
    ∃ read, IsBlind read ∧ ∀ rest, (∀ d cs, rest = d :: cs → Text.isDigit d = false) →
      readPower negative digits exponent down (c :: (ds ++ rest)) = read rest := by
  let power : Int :=
    if down then -(Text.numeralValue (c :: ds) : Int) else Text.numeralValue (c :: ds)
  have hread : ∀ rest, (∀ d cs, rest = d :: cs → Text.isDigit d = false) →
      readPower negative digits exponent down (c :: (ds ++ rest)) =
        match (exponentOverflow? 0 (c :: ds)).map (· ++ rest) with
        | some blamed =>
          if digits ≠ 0 ∧ down = false then failHere .numberOutOfRange blamed
          else readFloat negative 0 0 rest
        | none => readFloat negative digits (exponent + power) rest := by
    intro rest hrest
    rw [readPower, if_pos hc, Text.takeWhile_digits hds hrest, Text.dropWhile_digits hds hrest,
      ← List.cons_append, exponentOverflow?_append hrest]
  rcases hoverflow : exponentOverflow? 0 (c :: ds) with _ | blamed
  · refine ⟨_, isBlind_readFloat negative digits (exponent + power), fun rest hrest => ?_⟩
    rw [hread rest hrest, hoverflow, Option.map_none]
  · by_cases hfail : digits ≠ 0 ∧ down = false
    · refine ⟨fun rest => failHere .numberOutOfRange (blamed ++ rest), nofun, fun rest hrest => ?_⟩
      rw [hread rest hrest, hoverflow]
      exact if_pos hfail
    · refine ⟨_, isBlind_readFloat negative 0 0, fun rest hrest => ?_⟩
      rw [hread rest hrest, hoverflow]
      exact if_neg hfail

theorem isLocal_readPower (negative : Bool) (digits : Nat) (exponent : Int) (down : Bool) :
    IsLocal (readPower negative digits exponent down) := by
  intro cs j rest h
  cases cs with
  | nil => cases h
  | cons c cs =>
    by_cases hc : Text.isDigit c = true
    · obtain ⟨ds, between, rfl, hds, hbetween⟩ := exists_front Text.isDigit cs
      obtain ⟨read, hblind, hread⟩ := readPower_digits negative digits exponent down hc hds
      rw [hread between hbetween] at h
      obtain ⟨rfl, hafter⟩ := hblind _ _ _ h
      refine ⟨c :: ds, rfl, fun after hstops => ?_⟩
      rw [List.cons_append, hread after hstops.not_digit]
      exact hafter after
    · rw [readPower, if_neg hc] at h
      cases h

theorem isLocal_readExponent (negative : Bool) (digits : Nat) (exponent : Int) :
    IsLocal (readExponent negative digits exponent) := by
  intro cs j rest h
  by_cases hsigned : ∃ sign t, cs = sign :: t ∧ (sign = '+' ∨ sign = '-')
  · obtain ⟨sign, t, rfl, rfl | rfl⟩ := hsigned
    · rw [readExponent_plus] at h
      exact (isLocal_readPower _ _ _ _).behind (readExponent_plus negative digits exponent) h
    · rw [readExponent_minus] at h
      exact (isLocal_readPower _ _ _ _).behind (readExponent_minus negative digits exponent) h
  · have hunsigned : ∀ c t, cs = c :: t → c ≠ '+' ∧ c ≠ '-' := by
      intro c t hcs
      exact not_or.mp fun hc => hsigned ⟨c, t, hcs, hc⟩
    rw [readExponent_unsigned _ _ _ hunsigned] at h
    obtain ⟨text, rfl, htext⟩ := isLocal_readPower _ _ _ _ _ _ _ h
    refine ⟨text, rfl, fun after hstops => ?_⟩
    rw [readExponent_unsigned _ _ _ (begins_of_ne_nil (htext.ne_nil nofun) hunsigned after)]
    exact htext after hstops

/-- What is no exponent ends the number. -/
theorem readAfterFraction_other (negative : Bool) (whole fraction : List Char) {cs : List Char}
    (h : ∀ c rest, cs = c :: rest → c ≠ 'e' ∧ c ≠ 'E') :
    readAfterFraction negative whole fraction cs =
      readFloat negative (absorbDigits whole fraction).1 (absorbDigits whole fraction).2 cs := by
  delta readAfterFraction
  split
  next digits exponent hdigits =>
  split
  · next rest => exact absurd rfl (h _ rest rfl).1
  · next rest => exact absurd rfl (h _ rest rfl).2
  · rw [hdigits]

theorem isLocal_readAfterFraction (negative : Bool) (whole fraction : List Char) :
    IsLocal (readAfterFraction negative whole fraction) := by
  intro cs j rest h
  by_cases hmarked : ∃ mark t, cs = mark :: t ∧ (mark = 'e' ∨ mark = 'E')
  · obtain ⟨mark, t, rfl, rfl | rfl⟩ := hmarked
    · exact (isLocal_readExponent _ _ _).behind (fun _ => rfl) h
    · exact (isLocal_readExponent _ _ _).behind (fun _ => rfl) h
  · have hother : ∀ c t, cs = c :: t → c ≠ 'e' ∧ c ≠ 'E' := by
      intro c t hcs
      exact not_or.mp fun hc => hmarked ⟨c, t, hcs, hc⟩
    rw [readAfterFraction_other _ _ _ hother] at h
    obtain ⟨rfl, hafter⟩ := isBlind_readFloat _ _ _ _ _ _ h
    refine ⟨[], rfl, fun after hstops => ?_⟩
    rw [List.nil_append, readAfterFraction_other _ _ _ fun c t hcs => (hstops c t hcs).2.2]
    exact hafter after

/-- What comes after the digits of a number is read alike whatever follows it. -/
theorem isLocal_readFraction (negative : Bool) (whole : List Char) :
    IsLocal (readFraction negative whole) := by
  intro cs j rest h
  rw [readFraction.eq_def] at h
  split at h
  · next t =>
    obtain ⟨ds, between, rfl, hds, hbetween⟩ := exists_front Text.isDigit t
    simp only [Text.takeWhile_digits hds hbetween, Text.dropWhile_digits hds hbetween] at h
    by_cases hnil : ds = []
    · rw [if_pos hnil] at h
      split at h <;> cases h
    · rw [if_neg hnil] at h
      obtain ⟨text, rfl, htext⟩ := isLocal_readAfterFraction _ _ _ _ _ _ h
      refine ⟨'.' :: (ds ++ text), by rw [List.cons_append, List.append_assoc], fun after hstops => ?_⟩
      have hafter := begins_append hbetween hstops.not_digit
      rw [List.cons_append, List.append_assoc, readFraction, Text.takeWhile_digits hds hafter,
        Text.dropWhile_digits hds hafter, if_neg hnil]
      exact htext after hstops
  · exact (isLocal_readExponent _ _ _).behind (fun _ => rfl) h
  · exact (isLocal_readExponent _ _ _).behind (fun _ => rfl) h
  · obtain ⟨rfl, hafter⟩ := isBlind_readInteger _ _ _ _ _ h
    refine ⟨[], rfl, fun after hstops => ?_⟩
    rw [List.nil_append, readFraction_of_stops _ _ hstops]
    exact hafter after

/-- A number begins with digits, and a zero among them stands alone. -/
theorem exists_of_readNumber {negative : Bool} {cs : List Char} {r : Json × List Char}
    (h : readNumber negative cs = .ok r) :
    ∃ c ds rest, cs = c :: (ds ++ rest) ∧ Text.isDigit c = true ∧
      (∀ d ∈ ds, Text.isDigit d = true) ∧ (c = '0' → ds = []) ∧
      ∀ d more, rest = d :: more → Text.isDigit d = false := by
  cases cs with
  | nil => cases h
  | cons c cs =>
    by_cases hfirst : c = '0'
    · subst hfirst
      refine ⟨'0', [], cs, rfl, by decide, nofun, fun _ => rfl, ?_⟩
      rintro d more rfl
      by_contra hd
      rw [readNumber, if_pos (Bool.not_eq_false _ ▸ hd)] at h
      cases h
    · by_cases hc : Text.isDigit c = true
      · obtain ⟨ds, rest, rfl, hds, hrest⟩ := exists_front Text.isDigit cs
        exact ⟨c, ds, rest, rfl, hc, hds, fun hcontra => absurd hcontra hfirst, hrest⟩
      · rw [readNumber, if_neg hc] at h
        · cases h
        · exact hfirst

/-- **A number is read alike whatever follows it.** -/
theorem isLocal_readNumber (negative : Bool) : IsLocal (readNumber negative) := by
  intro cs j rest h
  obtain ⟨c, ds, between, rfl, hc, hds, hzero, hbetween⟩ := exists_of_readNumber h
  rw [readNumber_run negative hc hds hzero hbetween] at h
  obtain ⟨text, rfl, htext⟩ := isLocal_readFraction _ _ _ _ _ h
  refine ⟨c :: (ds ++ text), by rw [List.cons_append, List.append_assoc], fun after hstops => ?_⟩
  have hafter := begins_append hbetween hstops.not_digit
  rw [List.cons_append, List.append_assoc, readNumber_run negative hc hds hzero hafter]
  exact htext after hstops

end ExtensionKit.Json
