import ExtensionKit.Json.Reader
import ExtensionKit.Json.Text
import ExtensionKit.Proofs.Text.Numeral
import Mathlib.Tactic.SplitIfs

/-!
# Strings read back

A quoted string is read back to the characters it was made of, whatever follows its closing quote. The
argument goes character by character: `readEscape` undoes every escape that `escape` writes, and the
characters that stand for themselves are none that the reader takes for something else.
-/

namespace ExtensionKit.Text

/-- Four hexadecimal digits of a byte. -/
theorem paddedHexadecimal_byte {n : Nat} (h : n < 0x100) :
    paddedHexadecimal 4 n = ['0', '0', hexDigit (n / 16), hexDigit (n % 16)] := by
  rw [paddedHexadecimal, hexadecimal]
  by_cases hdigit : n < 16
  · rw [if_pos hdigit, Nat.div_eq_of_lt hdigit, Nat.mod_eq_of_lt hdigit]
    rfl
  · rw [if_neg hdigit, hexadecimal, if_pos (by omega)]
    rfl

end ExtensionKit.Text

namespace ExtensionKit.Json

theorem readHex_byte {n : Nat} (h : n < 0x100) (rest : List Char) :
    readHex (Text.paddedHexadecimal 4 n ++ rest) = .ok (n, rest) := by
  have hzero : Text.hexDigitValue? '0' = some 0 := by decide
  rw [Text.paddedHexadecimal_byte h]
  simp only [readHex, List.cons_append, List.nil_append, hzero,
    Text.hexDigitValue?_hexDigit _ (by omega : n / 16 < 16),
    Text.hexDigitValue?_hexDigit _ (by omega : n % 16 < 16)]
  have hvalue : ((0 * 16 + 0) * 16 + n / 16) * 16 + n % 16 = n := by omega
  rw [hvalue]

/-- Two characters with one number are equal. -/
theorem eq_of_toNat {c d : Char} (h : c.toNat = d.toNat) : c = d := by
  rw [← Char.ofNat_toNat c, h, Char.ofNat_toNat]

/-- **One character is read back**, and reading goes on after it. -/
theorem readCharacters_escape (bound : Nat) (c : Char) (rest : List Char) :
    readCharacters (bound + 1) (escape c ++ rest) =
      Reading.andThen (readCharacters bound rest) fun cs after => .ok (c :: cs, after) := by
  rw [escape]
  split_ifs with hquote hbackslash hb ht hn hf hr hcontrol
  · rw [hquote]
    rfl
  · rw [hbackslash]
    rfl
  · rw [eq_of_toNat (c := c) (d := Char.ofNat 0x08) hb]
    rfl
  · rw [eq_of_toNat (c := c) (d := '\t') ht]
    rfl
  · rw [eq_of_toNat (c := c) (d := '\n') hn]
    rfl
  · rw [eq_of_toNat (c := c) (d := Char.ofNat 0x0C) hf]
    rfl
  · rw [eq_of_toNat (c := c) (d := '\r') hr]
    rfl
  · have hread : readEscape ('u' :: (Text.paddedHexadecimal 4 c.toNat ++ rest)) =
        .ok (c, rest) := by
      rw [readEscape, readHex_byte (by omega), Reading.andThen, if_neg (by omega),
        if_neg (by omega), Char.ofNat_toNat]
    rw [List.append_assoc, List.cons_append, List.singleton_append, readCharacters, hread]
    rfl
  · rw [List.singleton_append, readCharacters, if_neg hcontrol]
    · exact hquote
    · exact hbackslash

/-- Escaped characters are read back, up to the quote. -/
theorem readCharacters_escaped {bound : Nat} (cs rest : List Char) (h : cs.length < bound) :
    readCharacters bound (cs.flatMap escape ++ '"' :: rest) = .ok (cs, rest) := by
  induction cs generalizing bound with
  | nil =>
    obtain ⟨bound, rfl⟩ : ∃ b, bound = b + 1 := ⟨bound - 1, by simp at h; omega⟩
    rfl
  | cons c cs ih =>
    rw [List.length_cons] at h
    obtain ⟨bound, rfl⟩ : ∃ b, bound = b + 1 := ⟨bound - 1, by omega⟩
    rw [List.flatMap_cons, List.append_assoc, readCharacters_escape, ih (by omega)]
    rfl

/-- An escape has a character at least. -/
theorem escape_length_pos (c : Char) : 0 < (escape c).length := by
  rw [escape]
  split_ifs <;> simp

theorem length_le_escaped (cs : List Char) : cs.length ≤ (cs.flatMap escape).length := by
  induction cs with
  | nil => exact Nat.le_refl 0
  | cons c cs ih =>
    have hc := escape_length_pos c
    rw [List.flatMap_cons, List.length_append, List.length_cons]
    omega

/-- **A quoted string is read back.** -/
theorem readString_quote (s : String) (rest : List Char) :
    readString (s.toList.flatMap escape ++ '"' :: rest) = .ok (s, rest) := by
  have hlength := length_le_escaped s.toList
  have hbound : s.toList.length < (s.toList.flatMap escape ++ '"' :: rest).length + 1 := by
    rw [List.length_append, List.length_cons]
    omega
  rw [readString, readCharacters_escaped _ _ hbound, Reading.andThen, String.ofList_toList]

end ExtensionKit.Json
