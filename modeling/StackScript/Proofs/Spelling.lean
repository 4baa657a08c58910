/-
# What literals stand for

The values of literals, by rules. A numeral is digits from the left to the right, and with each of
them the number is ten times what it was and the digit's value more. The body of a string is read
one piece after the other. A piece is a character other than a backslash, a backslash with a
character that goes with it, or a backslash, an `x` and the two hexadecimal digits of a character of
ASCII.

The readers of literals find the values that the rules give, and no others.

Key definitions: `Literal.Numeral`, `Literal.Piece`, `Literal.Body`.
Key theorems: `Literal.integer_eq_ok_iff`, `Literal.decode_eq_ok_iff_body`,
`Literal.string_eq_ok_iff_body`.
-/
import StackScript.Literal

namespace StackScript

theorem toNat_of_isDigit {c : Char} (h : c.isDigit = true) : 48 ≤ c.toNat ∧ c.toNat ≤ 57 := by
  simpa [Char.isDigit, UInt32.le_iff_toNat_le] using h

namespace Literal

/-! ### The rules -/

/-- The character is the decimal digit of value `v`. -/
def Digit (c : Char) (v : Nat) : Prop := "0123456789".toList[v]? = some c

/-- The digits stand for a number. -/
inductive Numeral : List Char → Nat → Prop
  | nil : Numeral [] 0
  | concat {cs n c v} : Numeral cs n → Digit c v → Numeral (cs ++ [c]) (10 * n + v)

/-- The characters that a backslash goes with, and what they stand for then. -/
def shortEscapes : List (Char × Char) :=
  [('n', '\n'), ('t', '\t'), ('r', '\r'), ('f', '\x0c'), ('0', '\x00'), ('"', '"'), ('\'', '\''),
    ('\\', '\\')]

/-- The character is the hexadecimal digit of value `v`, in lower or upper case. -/
def HexDigit (c : Char) (v : Nat) : Prop :=
  "0123456789abcdef".toList[v]? = some c ∨ "0123456789ABCDEF".toList[v]? = some c

/-- The text stands for one character of a string. -/
inductive Piece : List Char → Char → Prop
  | plain {c} : c ≠ '\\' → Piece [c] c
  | short {c d} : (c, d) ∈ shortEscapes → Piece ['\\', c] d
  | code {a b m n d} : HexDigit a m → HexDigit b n → 16 * m + n ≤ 0x7f → d.toNat = 16 * m + n →
      Piece ['\\', 'x', a, b] d

/-- The text stands for the characters of a string, in the same order. -/
inductive Body : List Char → List Char → Prop
  | nil : Body [] []
  | cons {piece d cs out} : Piece piece d → Body cs out → Body (piece ++ cs) (d :: out)

/-! ### Numbers -/

theorem digit_iff {c : Char} {v : Nat} : Digit c v ↔ c.isDigit = true ∧ c.toNat - 48 = v := by
  have hall : ∀ v < 10, "0123456789".toList[v]? = some (Char.ofNat (48 + v)) := by
    decide +kernel
  constructor
  · intro h
    have hv : v < 10 := (List.getElem?_eq_some_iff.mp h).1
    have hdigit : ∀ v < 10, (Char.ofNat (48 + v)).isDigit = true ∧
        (Char.ofNat (48 + v)).toNat - 48 = v := by
      decide +kernel
    rw [Digit, hall v hv] at h
    obtain rfl := Option.some.inj h
    exact hdigit v hv
  · rintro ⟨hdigit, rfl⟩
    obtain ⟨hlo, hhi⟩ := toNat_of_isDigit hdigit
    rw [Digit, hall (c.toNat - 48) (by omega), Nat.add_sub_cancel' hlo, Char.ofNat_toNat]

theorem digitsValueFrom_append : ∀ (acc : Nat) (a b : List Char),
    digitsValueFrom acc (a ++ b) = digitsValueFrom (digitsValueFrom acc a) b
  | _, [], _ => rfl
  | acc, c :: a, b => digitsValueFrom_append (acc * 10 + (c.toNat - 48)) a b

theorem digitsValue_concat (cs : List Char) (c : Char) :
    digitsValue (cs ++ [c]) = digitsValue cs * 10 + (c.toNat - 48) :=
  digitsValueFrom_append 0 cs [c]

/-- Digits after a numeral count as they do for the reader. -/
theorem Numeral.append_digits {a : List Char} {n : Nat} (h : Numeral a n) : ∀ {b : List Char},
    (∀ c ∈ b, c.isDigit = true) → Numeral (a ++ b) (digitsValueFrom n b)
  | [], _ => by rwa [List.append_nil]
  | c :: b, hb => by
    have hc : Numeral (a ++ [c]) (10 * n + (c.toNat - 48)) :=
      h.concat (digit_iff.mpr ⟨hb c List.mem_cons_self, rfl⟩)
    have hrest := hc.append_digits fun d hd => hb d (List.mem_cons_of_mem c hd)
    rw [List.append_assoc, List.singleton_append, Nat.mul_comm] at hrest
    exact hrest

theorem numeral_iff {cs : List Char} {n : Nat} :
    Numeral cs n ↔ (∀ c ∈ cs, c.isDigit = true) ∧ digitsValue cs = n := by
  constructor
  · intro h
    induction h with
    | nil => exact ⟨by simp, rfl⟩
    | concat _ hc ih =>
      obtain ⟨hdigits, rfl⟩ := ih
      obtain ⟨hdigit, rfl⟩ := digit_iff.mp hc
      refine ⟨fun d hd => ?_, by rw [digitsValue_concat, Nat.mul_comm]⟩
      rcases List.mem_append.mp hd with hd | hd
      · exact hdigits d hd
      · rwa [List.mem_singleton.mp hd]
  · rintro ⟨hdigits, rfl⟩
    exact Numeral.nil.append_digits hdigits

/-- The numbers that can be written are numerals up to a largest value. -/
theorem integer_eq_ok_iff {cs : List Char} {i : Int64} : integer cs = .ok i ↔
    ∃ n, Numeral cs n ∧ n ≤ 9223372036854775807 ∧ i.toInt = n := by
  simp only [numeral_iff]
  unfold integer maxInteger
  by_cases hdigits : cs.all Char.isDigit = true
  · rw [if_pos hdigits]
    rw [List.all_eq_true] at hdigits
    by_cases hle : digitsValue cs ≤ 0x7fffffffffffffff
    · rw [if_pos hle, Except.ok.injEq, ← Int64.toInt_inj, Int64.toInt_ofNat_of_lt (by omega)]
      constructor
      · intro h
        exact ⟨_, ⟨hdigits, rfl⟩, hle, h.symm⟩
      · rintro ⟨_, ⟨-, rfl⟩, -, h⟩
        exact h.symm
    · rw [if_neg hle]
      refine iff_of_false (fun h => by cases h) ?_
      rintro ⟨_, ⟨-, rfl⟩, h, -⟩
      exact hle h
  · rw [if_neg hdigits]
    refine iff_of_false (fun h => by cases h) ?_
    rintro ⟨_, ⟨h, -⟩, -⟩
    exact hdigits (List.all_eq_true.mpr h)

/-! ### Single escapes -/

theorem escaped?_eq_some_iff {c d : Char} : escaped? c = some d ↔ (c, d) ∈ shortEscapes := by
  constructor
  · intro h
    unfold escaped? at h
    split at h <;> cases h <;> decide
  · have hall : ∀ p ∈ shortEscapes, escaped? p.1 = some p.2 := by decide
    exact hall (c, d)

theorem hexValue?_eq_some_iff {c : Char} {v : Nat} : hexValue? c = some v ↔ HexDigit c v := by
  constructor
  · -- a digit is a character of ASCII, and these can be gone through
    have hall : ∀ n < 128, ∀ v ∈ hexValue? (Char.ofNat n), HexDigit (Char.ofNat n) v := by
      unfold HexDigit
      decide +kernel
    have hascii {d : Char} (hle : c ≤ d) (hd : d.toNat < 128) : c.toNat < 128 :=
      Nat.lt_of_le_of_lt hle hd
    intro h
    have hc : c.toNat < 128 := by
      unfold hexValue? at h
      split at h
      · next hr => exact hascii hr.2 (by decide)
      · split at h
        · next hr => exact hascii hr.2 (by decide)
        · split at h
          · next hr => exact hascii hr.2 (by decide)
          · cases h
    have hn := hall c.toNat hc v
    rw [Char.ofNat_toNat] at hn
    exact hn h
  · have hall : ∀ v < 16, ("0123456789abcdef".toList[v]?.bind hexValue?) = some v ∧
        ("0123456789ABCDEF".toList[v]?.bind hexValue?) = some v := by decide +kernel
    intro h
    have hv : v < 16 := by
      rcases h with h | h
      · exact (List.getElem?_eq_some_iff.mp h).1
      · exact (List.getElem?_eq_some_iff.mp h).1
    obtain ⟨hlower, hupper⟩ := hall v hv
    rcases h with h | h
    · rwa [h] at hlower
    · rwa [h] at hupper

theorem toNat_ofNat_ascii : ∀ k < 128, (Char.ofNat k).toNat = k := by decide

theorem ascii?_eq_some_iff {a b d : Char} : ascii? a b = some d ↔
    ∃ m n, HexDigit a m ∧ HexDigit b n ∧ 16 * m + n ≤ 0x7f ∧ d.toNat = 16 * m + n := by
  simp only [← hexValue?_eq_some_iff, ascii?]
  constructor
  · intro h
    cases ha : hexValue? a with
    | none => simp [ha] at h
    | some m =>
      cases hb : hexValue? b with
      | none => simp [ha, hb] at h
      | some n =>
        simp only [ha, hb, Option.ite_none_right_eq_some, Option.some.injEq] at h
        obtain ⟨hlt, rfl⟩ := h
        exact ⟨m, n, rfl, rfl, by omega, by rw [toNat_ofNat_ascii _ hlt]; omega⟩
  · rintro ⟨m, n, ha, hb, hle, hd⟩
    have hvalue : m * 16 + n = d.toNat := by omega
    simp only [ha, hb, hvalue, Char.ofNat_toNat]
    exact if_pos (by omega)

/-! ### Strings -/

theorem decode_plain {c : Char} (h : c ≠ '\\') (cs : List Char) :
    decode (c :: cs) = (decode cs).map (c :: ·) := by
  rw [decode]
  all_goals intros; simp_all

theorem decode_short {c d : Char} (h : escaped? c = some d) (cs : List Char) :
    decode ('\\' :: c :: cs) = (decode cs).map (d :: ·) := by
  have hx : c ≠ 'x' := by
    rintro rfl
    cases h
  rw [decode]
  · rw [h]
  · exact fun _ _ _ hc => absurd hc hx
  · exact fun hc => absurd hc hx

/-- A piece is decoded to its character, whatever follows. -/
theorem Piece.decode_append {piece : List Char} {d : Char} (h : Piece piece d) (cs : List Char) :
    decode (piece ++ cs) = (decode cs).map (d :: ·) := by
  cases h with
  | plain hc => exact decode_plain hc cs
  | short hd => exact decode_short (escaped?_eq_some_iff.mpr hd) cs
  | @code a b m n _ ha hb hle hd =>
    have hascii : ascii? a b = some d := ascii?_eq_some_iff.mpr ⟨m, n, ha, hb, hle, hd⟩
    simp [decode, hascii]

theorem map_cons_eq_ok {c : Char} {x : Except Cause (List Char)} {out : List Char}
    (h : x.map (c :: ·) = .ok out) : ∃ out', x = .ok out' ∧ out = c :: out' := by
  cases x with
  | error e => cases h
  | ok out' => exact ⟨out', rfl, (Except.ok.inj h).symm⟩

/-- What is decoded is pieces. -/
theorem body_of_decode {cs out : List Char} (h : decode cs = .ok out) : Body cs out := by
  fun_induction decode cs generalizing out with
  | case1 =>
    cases h
    exact .nil
  | case2 a b cs d hascii ih =>
    obtain ⟨out, hrest, rfl⟩ := map_cons_eq_ok h
    obtain ⟨m, n, ha, hb, hle, hd⟩ := ascii?_eq_some_iff.mp hascii
    exact .cons (.code ha hb hle hd) (ih hrest)
  | case3 => cases h
  | case4 => cases h
  | case5 c cs _ _ d hd ih =>
    obtain ⟨out, hrest, rfl⟩ := map_cons_eq_ok h
    exact .cons (.short (escaped?_eq_some_iff.mp hd)) (ih hrest)
  | case6 => cases h
  | case7 => cases h
  | case8 c cs hcode hx hshort hlast ih =>
    obtain ⟨out, hrest, rfl⟩ := map_cons_eq_ok h
    have hc : c ≠ '\\' := by
      rintro rfl
      cases cs with
      | nil => exact hlast rfl rfl
      | cons e es => exact hshort e es rfl rfl
    exact .cons (.plain hc) (ih hrest)

theorem decode_eq_ok_iff_body {cs out : List Char} : decode cs = .ok out ↔ Body cs out := by
  refine ⟨body_of_decode, fun h => ?_⟩
  induction h with
  | nil => rfl
  | cons hpiece _ ih =>
    rw [hpiece.decode_append, ih]
    rfl

/-- What stands between the first and the last character of a string token is the body. -/
theorem string_eq_ok_iff_body {text : List Char} {s : String} :
    string text = .ok s ↔ Body text.tail.dropLast s.toList := by
  rw [← decode_eq_ok_iff_body, string]
  cases decode text.tail.dropLast with
  | error e => simp [Except.map]
  | ok out => simp [Except.map, ← String.toList_inj]

end Literal

end StackScript
