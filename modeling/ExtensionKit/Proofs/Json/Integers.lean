import ExtensionKit.Json.Reader
import ExtensionKit.Proofs.Text.Numeral

/-!
# Integers read back

A reader of numbers does not know where its numeral ends until it sees what follows. So the statements
here are about a text that goes on after the numeral with something that *stops* it: neither a digit nor
the beginning of a fraction or of an exponent.
-/

namespace ExtensionKit.Json

/-- A rest of a text that no numeral reaches into. -/
def Stops (rest : List Char) : Prop :=
  ∀ c cs, rest = c :: cs → Text.isDigit c = false ∧ c ≠ '.' ∧ c ≠ 'e' ∧ c ≠ 'E'

/-- A text is read as a value, whatever follows. -/
def Reads (read : List Char → Reading α) (text : List Char) (value : α) : Prop :=
  ∀ rest, Stops rest → read (text ++ rest) = .ok (value, rest)

theorem stops_nil : Stops [] := nofun

theorem stops_cons {c : Char} (hdigit : Text.isDigit c = false)
    (hmark : c ≠ '.' ∧ c ≠ 'e' ∧ c ≠ 'E') (rest : List Char) : Stops (c :: rest) := by
  intro d cs h
  obtain ⟨rfl, rfl⟩ := List.cons.inj h
  exact ⟨hdigit, hmark⟩

/-! ## Integers -/

theorem Stops.not_digit {rest : List Char} (h : Stops rest) :
    ∀ c cs, rest = c :: cs → Text.isDigit c = false :=
  fun c cs hrest => (h c cs hrest).1

/-- Where a numeral stops it is an integer. -/
theorem readFraction_of_stops (negative : Bool) (whole : List Char) {rest : List Char}
    (h : Stops rest) : readFraction negative whole rest = readInteger negative whole rest := by
  rw [readFraction]
  · exact fun cs hcs => (h _ cs hcs).2.1 rfl
  · exact fun cs hcs => (h _ cs hcs).2.2.1 rfl
  · exact fun cs hcs => (h _ cs hcs).2.2.2 rfl

/-- Digits without a needless zero are read as the part of a number before the point. -/
theorem readNumber_run (negative : Bool) {c : Char} {cs rest : List Char}
    (hc : Text.isDigit c = true) (hcs : ∀ d ∈ cs, Text.isDigit d = true)
    (hzero : c = '0' → cs = []) (hrest : ∀ d more, rest = d :: more → Text.isDigit d = false) :
    readNumber negative (c :: (cs ++ rest)) = readFraction negative (c :: cs) rest := by
  by_cases hfirst : c = '0'
  · -- a zero stands alone, and the reader looks at what follows it
    rw [hzero hfirst, hfirst, List.nil_append]
    cases rest with
    | nil => rfl
    | cons d rest => rw [readNumber, if_neg (by rw [hrest d rest rfl]; decide)]
  · rw [readNumber, if_pos hc, Text.takeWhile_digits hcs hrest, Text.dropWhile_digits hcs hrest]
    exact fun hcontra => hfirst hcontra

/-- Digits that nothing goes on are read as an integer. -/
theorem readNumber_digits (negative : Bool) {c : Char} {cs rest : List Char}
    (hc : Text.isDigit c = true) (hcs : ∀ d ∈ cs, Text.isDigit d = true)
    (hzero : c = '0' → cs = []) (h : Stops rest) :
    readNumber negative (c :: (cs ++ rest)) = readInteger negative (c :: cs) rest :=
  (readNumber_run negative hc hcs hzero h.not_digit).trans (readFraction_of_stops negative (c :: cs) h)

/-- A natural in decimal is read as an integer. -/
theorem readNumber_decimal (negative : Bool) (n : Nat) {rest : List Char} (h : Stops rest) :
    readNumber negative (Text.decimal n ++ rest) = readInteger negative (Text.decimal n) rest := by
  have hdigits : ∀ c ∈ Text.decimal n, Text.isDigit c = true :=
    fun c hc => Text.isDigit_of_mem_decimal hc
  obtain ⟨c, cs, hdecimal, hfirst, hzero⟩ := Text.decimal_eq_cons n
  rw [hdecimal] at hdigits ⊢
  apply readNumber_digits negative (hdigits c (List.mem_cons_self ..)) _ _ h
  · exact fun d hd => hdigits d (List.mem_cons_of_mem c hd)
  · intro hc
    by_cases hn : n = 0
    · exact hzero hn
    · exact absurd hc (hfirst hn)

/-- Digits are read as an integer of 64 bits if their value is one and no negative zero. -/
theorem readInteger_eq {negative : Bool} {whole rest : List Char} {value : Int}
    (bounded : -0x8000000000000000 ≤ value ∧ value < 0x10000000000000000)
    (hvalue : (if negative then -(Text.numeralValue whole : Int) else Text.numeralValue whole) =
      value)
    (hzero : ¬ (negative = true ∧ Text.numeralValue whole = 0)) :
    readInteger negative whole rest = .ok (.number (.integer value bounded), rest) := by
  subst hvalue
  rw [readInteger, dif_pos ⟨bounded, hzero⟩]

/-- **An integer is read back.** -/
theorem reads_integer (depth : Nat) (i : Int)
    (bounded : -0x8000000000000000 ≤ i ∧ i < 0x10000000000000000) :
    Reads (readValue depth) (Text.signedDecimal i) (.number (.integer i bounded)) := by
  intro rest h
  rw [Text.signedDecimal]
  by_cases hneg : i < 0
  · rw [if_pos hneg, List.cons_append, readValue, readNumber_decimal true _ h]
    apply readInteger_eq bounded
    · rw [if_pos rfl, Text.numeralValue_decimal]
      omega
    · rw [Text.numeralValue_decimal]
      omega
  · have hread := readNumber_decimal false i.natAbs h
    have hdigits : ∀ c ∈ Text.decimal i.natAbs, Text.isDigit c = true :=
      fun c hc => Text.isDigit_of_mem_decimal hc
    obtain ⟨c, cs, hdecimal, -⟩ := Text.decimal_eq_cons i.natAbs
    have hc : Text.isDigit c = true := hdigits c (hdecimal ▸ List.mem_cons_self ..)
    have hvalue : readValue depth (Text.decimal i.natAbs ++ rest) =
        readNumber false (Text.decimal i.natAbs ++ rest) := by
      rw [hdecimal, List.cons_append, readValue, if_pos hc]
      all_goals
        rintro rfl
        exact absurd hc (by decide)
    rw [if_neg hneg, hvalue, hread]
    apply readInteger_eq bounded
    · rw [if_neg (by decide), Text.numeralValue_decimal]
      omega
    · exact fun hcontra => absurd hcontra.1 (by decide)

end ExtensionKit.Json
