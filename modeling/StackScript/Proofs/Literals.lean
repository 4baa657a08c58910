/-
# Literals are read back

A text that is written as a string literal is read as one string token, whatever follows, and
stands for the text. Each character is written in one of three ways (`escapeChar_cases`), and
none of them holds a quote or a backslash that could be taken for the end of the string or the
beginning of another escape. An integer that is not negative is written as a run of digits, and
is the value of that run.

Key theorems: `Literal.escapeChar_cases`, `Literal.body_encode`, `symbols_encode`,
`numeral_digits`.
-/
import StackScript.Proofs.Symbols

namespace StackScript

/-! ### Strings -/

theorem hexChar_facts : ∀ d < 16, hexValue? (hexChar d) = some d ∧ hexChar d ≠ '"' ∧
    hexChar d ≠ '\\' := by
  decide

namespace Literal

/-- A character is written as a backslash and one more, by code point, or as it is. -/
theorem escapeChar_cases (c : Char) :
    (∃ d, (d, c) ∈ shortEscapes ∧ escapeChar c = ['\\', d]) ∨
    (c.toNat < 128 ∧ escapeChar c = ['\\', 'x', hexChar (c.toNat / 16), hexChar (c.toNat % 16)]) ∨
    (c ≠ '"' ∧ c ≠ '\\' ∧ escapeChar c = [c]) := by
  unfold escapeChar
  by_cases h₁ : c = '\n'
  · exact .inl ⟨'n', by rw [h₁]; decide, if_pos h₁⟩
  rw [if_neg h₁]
  by_cases h₂ : c = '\t'
  · exact .inl ⟨'t', by rw [h₂]; decide, if_pos h₂⟩
  rw [if_neg h₂]
  by_cases h₃ : c = '\r'
  · exact .inl ⟨'r', by rw [h₃]; decide, if_pos h₃⟩
  rw [if_neg h₃]
  by_cases h₄ : c = '\x0c'
  · exact .inl ⟨'f', by rw [h₄]; decide, if_pos h₄⟩
  rw [if_neg h₄]
  by_cases h₅ : c = '\x00'
  · exact .inl ⟨'0', by rw [h₅]; decide, if_pos h₅⟩
  rw [if_neg h₅]
  by_cases h₆ : c = '"'
  · exact .inl ⟨'"', by rw [h₆]; decide, if_pos h₆⟩
  rw [if_neg h₆]
  by_cases h₇ : c = '\\'
  · exact .inl ⟨'\\', by rw [h₇]; decide, if_pos h₇⟩
  rw [if_neg h₇]
  by_cases h₈ : c.toNat < 32 ∨ c.toNat = 127
  · exact .inr (.inl ⟨by omega, by rw [if_pos h₈]; rfl⟩)
  · exact .inr (.inr ⟨h₆, h₇, if_neg h₈⟩)

/-- A character that is no quote or backslash does not end a string. -/
theorem closeQuote?_cons {c : Char} (hq : c ≠ '"') (hb : c ≠ '\\') (cs : List Char) :
    closeQuote? (c :: cs) = (closeQuote? cs).map fun p => (c :: p.1, p.2) := by
  rw [closeQuote?]
  · exact fun h => absurd h hq
  · exact fun _ _ h => absurd h hb

theorem closeQuote?_escapeChar (c : Char) (cs : List Char) :
    closeQuote? (escapeChar c ++ cs) =
      (closeQuote? cs).map fun p => (escapeChar c ++ p.1, p.2) := by
  rcases escapeChar_cases c with ⟨d, -, he⟩ | ⟨hlt, he⟩ | ⟨hq, hb, he⟩
  · simp [he, closeQuote?]
  · obtain ⟨-, hq₁, hb₁⟩ := hexChar_facts (c.toNat / 16) (by omega)
    obtain ⟨-, hq₂, hb₂⟩ := hexChar_facts (c.toNat % 16) (by omega)
    simp [he, closeQuote?, closeQuote?_cons hq₁ hb₁, closeQuote?_cons hq₂ hb₂,
      Function.comp_def]
  · simp [he, closeQuote?_cons hq hb]

/-- A written text ends at the quote after it. -/
theorem closeQuote?_flatMap (rest cs : List Char) :
    closeQuote? (cs.flatMap escapeChar ++ '"' :: rest) =
      some (cs.flatMap escapeChar ++ ['"'], rest) := by
  induction cs with
  | nil => simp [closeQuote?]
  | cons c cs ih =>
    rw [List.flatMap_cons, List.append_assoc, closeQuote?_escapeChar, ih]
    simp

/-- A character that is written stands for itself. -/
theorem piece_escapeChar (c : Char) : Piece (escapeChar c) c := by
  rcases escapeChar_cases c with ⟨d, hd, he⟩ | ⟨hlt, he⟩ | ⟨-, hb, he⟩
  · rw [he]
    exact .short hd
  · have hhigh := (hexChar_facts (c.toNat / 16) (by omega)).1
    have hlow := (hexChar_facts (c.toNat % 16) (by omega)).1
    rw [he]
    refine .code (hexValue?_eq_some_iff.mp hhigh) (hexValue?_eq_some_iff.mp hlow) ?_ ?_
    · omega
    · omega
  · rw [he]
    exact .plain hb

theorem body_flatMap (cs : List Char) : Body (cs.flatMap escapeChar) cs := by
  induction cs with
  | nil => exact .nil
  | cons c cs ih => exact .cons (piece_escapeChar c) ih

theorem toList_encode (s : String) :
    (encode s).toList = '"' :: (s.toList.flatMap escapeChar ++ ['"']) := by
  simp [encode]

/-- A written text stands for itself. -/
theorem body_encode (s : String) : Body (encode s).toList.tail.dropLast s.toList := by
  rw [toList_encode, List.tail_cons, List.dropLast_concat]
  exact body_flatMap s.toList

end Literal

/-- A string literal is one symbol. -/
theorem symbols_encode (s : String) (rest : List Char) :
    symbols ((Literal.encode s).toList ++ rest) =
      ⟨.string, (Literal.encode s).toList⟩ :: symbols rest := by
  have h := symbols_string (Literal.closeQuote?_flatMap rest s.toList)
  rw [Literal.toList_encode]
  simpa using h

/-! ### Numbers -/

theorem toNat_digitChar : ∀ d < 10, (digitChar d).toNat = 48 + d := by decide

theorem digit_digitChar : ∀ d < 10, Literal.Digit (digitChar d) d := by
  unfold Literal.Digit
  decide

/-- The digits of a number stand for it. -/
theorem numeral_digits (n : Nat) : Literal.Numeral (digits n) n := by
  fun_induction digits n with
  | case1 n h => simpa using Literal.Numeral.nil.concat (digit_digitChar n h)
  | case2 n h ih =>
    have hlast := ih.concat (digit_digitChar (n % 10) (by omega))
    rwa [Nat.div_add_mod] at hlast

theorem isDigit_of_mem_digits (n : Nat) : ∀ c ∈ digits n, c.isDigit = true :=
  (Literal.numeral_iff.mp (numeral_digits n)).1

theorem digitsValue_digits (n : Nat) : digitsValue (digits n) = n :=
  (Literal.numeral_iff.mp (numeral_digits n)).2

theorem digits_ne_nil (n : Nat) : digits n ≠ [] := by
  rw [digits]
  split <;> simp

/-- A number is one symbol. -/
theorem symbols_digits (n : Nat) {rest : List Char} (hr : EndsWord rest) :
    symbols (digits n ++ rest) = ⟨.integer, digits n⟩ :: symbols rest := by
  have hd := isDigit_of_mem_digits n
  cases h : digits n with
  | nil => exact absurd h (digits_ne_nil n)
  | cons c cs =>
    rw [h] at hd
    have hcs : ∀ d ∈ cs, isWordChar d = true := fun d hm => by
      simp [isWordChar, hd d (List.mem_cons_of_mem _ hm)]
    exact symbols_number (hd c List.mem_cons_self) hcs hr

/-- An integer that is not negative is written in digits, and is their value. -/
theorem toList_signed {v : Int64} (h : 0 ≤ v) :
    ∃ n ≤ 9223372036854775807, (signed v.toInt).toList = digits n ∧ v.toInt = n := by
  have h₀ : 0 ≤ v.toInt := by simpa using Int64.le_iff_toInt_le.mp h
  have hlt := v.toInt_lt
  refine ⟨v.toInt.natAbs, by omega, ?_, by omega⟩
  rw [signed, if_neg (by omega), decimal, String.toList_ofList]

end StackScript
