/-
# Written JSON is read back

What a written text says does not depend on what stands after it, as long as that cannot go on
with a number. `Says` is this: from the bytes of the text and any such rest, the reader finds the
value and leaves the rest. A closing bracket, a comma and the end of the bytes are such rests, so
arrays and objects of texts that say something say the array or object of those values.

A string is the hard case, because it is written character by character and read byte by byte. A
character is written as a backslash and one more, by its code point, or as it is
(`escapeChar_cases`). In the last case none of its bytes is a quote, a backslash or a control
byte, since the bytes of a character beyond ASCII are all large, so each of them is read as it is.

Key definitions: `Json.Says`, `Json.Stops`.
Key theorems: `Json.says_quote`, `Json.says_signed`, `Json.says_writeArray`,
`Json.says_writeObject`, `Json.read?_of_says`.
-/
import Mathlib.Data.List.Forall2
import StackScript.Json.Reader
import StackScript.Proofs.Literals
import StackScript.Proofs.Reading

namespace StackScript

namespace Json

open Reading

/-! ### Bytes of characters -/

/-- A character of ASCII is one byte. -/
theorem utf8_ascii {c : Char} (h : c.toNat < 128) : utf8 [c] = [byte c] := by
  have hv : c.val.toNat ≤ 127 := Nat.le_of_lt_succ h
  simp only [utf8_cons, utf8_nil, List.append_nil, String.utf8EncodeChar, if_pos hv]
  rfl

/-- The bytes of other characters are large. -/
theorem le_of_mem_utf8 {c : Char} (h : 128 ≤ c.toNat) {b : UInt8} (hb : b ∈ utf8 [c]) :
    128 ≤ b.toNat := by
  have hv : ¬ c.val.toNat ≤ 127 := Nat.not_le_of_lt h
  simp only [utf8_cons, utf8_nil, List.append_nil, String.utf8EncodeChar, if_neg hv] at hb
  split at hb
  · simp only [List.mem_cons, List.not_mem_nil, or_false] at hb
    rcases hb with rfl | rfl <;> simp only [UInt8.toNat_ofNat'] <;> omega
  · split at hb
    · simp only [List.mem_cons, List.not_mem_nil, or_false] at hb
      rcases hb with rfl | rfl | rfl <;> simp only [UInt8.toNat_ofNat'] <;> omega
    · simp only [List.mem_cons, List.not_mem_nil, or_false] at hb
      rcases hb with rfl | rfl | rfl | rfl <;> simp only [UInt8.toNat_ofNat'] <;> omega

theorem toNat_byte {c : Char} (h : c.toNat < 128) : (byte c).toNat = c.toNat := by
  have : (byte c).toNat = c.toNat % 2 ^ 8 := UInt8.toNat_ofNat'
  omega

/-- A character of ASCII is read back from its byte. -/
theorem ofByte_byte {c : Char} (h : c.toNat < 128) : ofByte (byte c) = c := by
  rw [ofByte, toNat_byte h, Char.ofNat_toNat]

/-! ### Strings -/

/-- A character is written as a backslash and one more, by its code point, or as it is. -/
theorem escapeChar_cases (c : Char) :
    (∃ d, d.toNat < 128 ∧ byte d ≠ byte 'u' ∧ escape? (byte d) = some (byte c) ∧
      c.toNat < 128 ∧ escapeChar c = ['\\', d]) ∨
    (c.toNat < 32 ∧
      escapeChar c = ['\\', 'u', '0', '0', hexChar (c.toNat / 16), hexChar (c.toNat % 16)]) ∨
    (32 ≤ c.toNat ∧ c ≠ '"' ∧ c ≠ '\\' ∧ escapeChar c = [c]) := by
  unfold escapeChar
  by_cases h₁ : c = '"'
  · exact .inl ⟨'"', by decide, by decide, by rw [h₁]; decide, by rw [h₁]; decide, if_pos h₁⟩
  rw [if_neg h₁]
  by_cases h₂ : c = '\\'
  · exact .inl ⟨'\\', by decide, by decide, by rw [h₂]; decide, by rw [h₂]; decide, if_pos h₂⟩
  rw [if_neg h₂]
  by_cases h₃ : c = '\x08'
  · exact .inl ⟨'b', by decide, by decide, by rw [h₃]; decide, by rw [h₃]; decide, if_pos h₃⟩
  rw [if_neg h₃]
  by_cases h₄ : c = '\t'
  · exact .inl ⟨'t', by decide, by decide, by rw [h₄]; decide, by rw [h₄]; decide, if_pos h₄⟩
  rw [if_neg h₄]
  by_cases h₅ : c = '\n'
  · exact .inl ⟨'n', by decide, by decide, by rw [h₅]; decide, by rw [h₅]; decide, if_pos h₅⟩
  rw [if_neg h₅]
  by_cases h₆ : c = '\x0c'
  · exact .inl ⟨'f', by decide, by decide, by rw [h₆]; decide, by rw [h₆]; decide, if_pos h₆⟩
  rw [if_neg h₆]
  by_cases h₇ : c = '\r'
  · exact .inl ⟨'r', by decide, by decide, by rw [h₇]; decide, by rw [h₇]; decide, if_pos h₇⟩
  rw [if_neg h₇]
  by_cases h₈ : c.toNat < 32
  · exact .inr (.inl ⟨h₈, by rw [if_pos h₈]; rfl⟩)
  · exact .inr (.inr ⟨Nat.le_of_not_lt h₈, h₁, h₂, if_neg h₈⟩)

/-- Bytes that are not special in a string. -/
def Plain (b : UInt8) : Prop := b ≠ byte '"' ∧ b ≠ byte '\\' ∧ ¬ b < 32

theorem pieces?_quote (bs : List UInt8) : pieces? (byte '"' :: bs) = some ([], bs) := by
  rw [pieces?.eq_def]
  simp only [if_true]

theorem pieces?_plain {b : UInt8} (h : Plain b) (bs : List UInt8) :
    pieces? (b :: bs) = (pieces? bs).map fun p => (.byte b :: p.1, p.2) := by
  obtain ⟨hq, hs, hc⟩ := h
  rw [pieces?.eq_def]
  simp only [if_neg hq, if_neg hs, if_neg hc]

theorem pieces?_plain_append : ∀ {as : List UInt8}, (∀ b ∈ as, Plain b) → ∀ bs : List UInt8,
    pieces? (as ++ bs) = (pieces? bs).map fun p => (as.map .byte ++ p.1, p.2)
  | [], _, bs => by simp
  | a :: as, h, bs => by
    have has := pieces?_plain_append (fun b hb => h b (List.mem_cons_of_mem a hb)) bs
    rw [List.cons_append, pieces?_plain (h a List.mem_cons_self), has, Option.map_map]
    rfl

/-- The bytes of a character that is written as it is. -/
theorem plain_of_mem_utf8 {c : Char} (h : 32 ≤ c.toNat) (hq : c ≠ '"') (hs : c ≠ '\\')
    {b : UInt8} (hb : b ∈ utf8 [c]) : Plain b := by
  by_cases hc : c.toNat < 128
  · rw [utf8_ascii hc, List.mem_singleton] at hb
    subst hb
    refine ⟨fun he => hq ?_, fun he => hs ?_, fun hlt => ?_⟩
    · rw [← ofByte_byte hc, he, ofByte_byte (by decide)]
    · rw [← ofByte_byte hc, he, ofByte_byte (by decide)]
    · have := UInt8.lt_iff_toNat_lt.mp hlt
      rw [toNat_byte hc] at this
      exact absurd this (Nat.not_lt.mpr h)
  · have hlarge := le_of_mem_utf8 (Nat.le_of_not_lt hc) hb
    refine ⟨?_, ?_, fun hlt => ?_⟩
    · rintro rfl
      exact absurd hlarge (by decide)
    · rintro rfl
      exact absurd hlarge (by decide)
    · have : b.toNat < 32 := UInt8.lt_iff_toNat_lt.mp hlt
      omega

theorem pieceBytes?_bytes (as : List UInt8) (ps : List Piece) :
    pieceBytes? (as.map .byte ++ ps) = (pieceBytes? ps).map (as ++ ·) := by
  induction as with
  | nil => simp
  | cons a as ih =>
    rw [List.map_cons, List.cons_append, pieceBytes?, ih, Option.map_map]
    rfl

/-- The code unit of a control character. -/
theorem unit?_hexChar : ∀ n < 32, unit? (byte '0') (byte '0') (byte (hexChar (n / 16)))
    (byte (hexChar (n % 16))) = some n := by
  decide

/-- A written character is read as parts that stand for its bytes. -/
theorem pieces?_escapeChar (c : Char) : ∃ ps : List Piece,
    (∀ bs, pieces? (utf8 (escapeChar c) ++ bs) =
      (pieces? bs).map fun p => (ps ++ p.1, p.2)) ∧
    ∀ qs, pieceBytes? (ps ++ qs) = (pieceBytes? qs).map (utf8 [c] ++ ·) := by
  rcases escapeChar_cases c with ⟨d, hd, hu, he, hc, hw⟩ | ⟨hc, hw⟩ | ⟨hc, hq, hs, hw⟩
  · have hbytes : utf8 (escapeChar c) = [byte '\\', byte d] := by
      rw [hw, ← List.singleton_append, utf8_append, utf8_ascii hd, utf8_ascii (by decide)]
      rfl
    refine ⟨[.byte (byte c)], fun bs => ?_, fun qs => ?_⟩
    · rw [hbytes, pieces?.eq_def]
      simp only [List.cons_append, List.nil_append, show byte '\\' ≠ byte '"' by decide,
        if_false, if_true, if_neg hu, he]
    · rw [utf8_ascii hc]
      rfl
  · have hbytes : utf8 (escapeChar c) = [byte '\\', byte 'u', byte '0', byte '0',
        byte (hexChar (c.toNat / 16)), byte (hexChar (c.toNat % 16))] := by
      rw [hw]
      generalize c.toNat = n at hc
      revert n
      decide
    refine ⟨[.unit c.toNat], fun bs => ?_, fun qs => ?_⟩
    · rw [hbytes, pieces?.eq_def]
      simp only [List.cons_append, List.nil_append, show byte '\\' ≠ byte '"' by decide,
        if_false, if_true, unit?_hexChar _ hc]
    · rw [List.singleton_append, pieceBytes?.eq_def]
      simp only
      rw [if_neg (by omega), if_neg (by omega), Char.ofNat_toNat]
  · refine ⟨(utf8 [c]).map .byte, fun bs => ?_, fun qs => pieceBytes?_bytes _ qs⟩
    rw [hw]
    exact pieces?_plain_append (fun b hb => plain_of_mem_utf8 hc hq hs hb) bs

/-- A written text is read as parts that stand for its bytes, up to the quote after it. -/
theorem pieces?_flatMap (rest : List UInt8) (cs : List Char) : ∃ ps : List Piece,
    pieces? (utf8 (cs.flatMap escapeChar) ++ byte '"' :: rest) = some (ps, rest) ∧
      pieceBytes? ps = some (utf8 cs) := by
  induction cs with
  | nil => exact ⟨[], pieces?_quote rest, rfl⟩
  | cons c cs ih =>
    obtain ⟨ps, hps, hbytes⟩ := ih
    obtain ⟨qs, hqs, hchar⟩ := pieces?_escapeChar c
    refine ⟨qs ++ ps, ?_, ?_⟩
    · rw [List.flatMap_cons, utf8_append, List.append_assoc, hqs, hps]
      rfl
    · rw [hchar, hbytes, Option.map_some, ← utf8_append, List.singleton_append]

theorem utf8_quote (s : String) :
    utf8 (quote s).toList = byte '"' :: (utf8 (s.toList.flatMap escapeChar) ++ [byte '"']) := by
  simp only [quote, String.toList_append, String.toList_ofList, utf8_append]
  rfl

/-- A string after its opening quote is its text. -/
theorem stringBody_finds (s : String) (rest : List UInt8) :
    (stringBody (utf8 (s.toList.flatMap escapeChar) ++ byte '"' :: rest)).Finds (some s) rest := by
  obtain ⟨ps, hps, hbytes⟩ := pieces?_flatMap rest s.toList
  have htext : pieceText? ps = some s := by
    rw [pieceText?, hbytes]
    simp [ofUtf8?_utf8]
  unfold stringBody
  split
  · next h => rw [hps] at h; cases h
  · next qs r h =>
    rw [hps] at h
    obtain ⟨rfl, rfl⟩ := Prod.mk.inj (Option.some.inj h)
    exact found_finds.mpr ⟨htext, rfl⟩

/-! ### What a text says -/

/-- No byte that goes on with a number stands here. -/
def Stops (bs : List UInt8) : Prop :=
  ∀ b ∈ bs.head?, isDigit b = false ∧ b ≠ byte '.' ∧ b ≠ byte 'e' ∧ b ≠ byte 'E'

theorem stops_cons {b : UInt8} {bs : List UInt8} (h : b ∈ [byte ',', byte ']', byte '\x7d']) :
    Stops (b :: bs) := by
  intro c hc
  obtain rfl := Option.some.inj hc
  revert h
  simp only [List.mem_cons, List.not_mem_nil, or_false]
  rintro (rfl | rfl | rfl) <;> decide

/-- Bytes that say a value, whatever stops it: they begin neither with a blank nor with the end of
an array, and the reader finds the value in them and leaves what follows. -/
structure Says (bs : List UInt8) (v : Json) : Prop where
  begins : ∃ b bs', bs = b :: bs' ∧ isSpace b = false ∧ b ≠ byte ']'
  reads : ∀ rest, Stops rest → (value (bs ++ rest)).Finds v rest

/-- A text that says a value is read as it. -/
theorem read?_of_says {bs : List UInt8} {v : Json} (h : Says bs v) : read? bs = some v := by
  have hf := h.reads [] (fun b hb => by cases hb)
  rw [List.append_nil] at hf
  obtain ⟨hlt, he⟩ := hf
  rw [read?, he]
  rfl

theorem says_quote (s : String) : Says (utf8 (quote s).toList) (.string (some s)) := by
  rw [utf8_quote]
  refine ⟨⟨_, _, rfl, by decide, by decide⟩, fun rest _ => ?_⟩
  rw [List.cons_append, List.append_assoc, value]
  simp only [show isSpace (byte '"') = false by decide, Bool.false_eq_true, if_false, if_true,
    within_finds, map_finds]
  exact ⟨_, stringBody_finds s rest, rfl⟩

/-! ### Numbers and words -/

/-- No number but zero begins with the digit zero. -/
theorem eq_zero_of_digits {n : Nat} {cs : List Char} (h : digits n = '0' :: cs) : n = 0 := by
  fun_induction digits n generalizing cs with
  | case1 n hn =>
    have hc := congrArg Char.toNat (List.cons.inj h).1
    rw [toNat_digitChar n hn] at hc
    have : Char.toNat '0' = 48 := by decide
    omega
  | case2 n hn ih =>
    cases hd : digits (n / 10) with
    | nil => exact absurd hd (digits_ne_nil _)
    | cons d ds =>
      rw [hd, List.cons_append] at h
      have := ih (hd.trans (congrArg (· :: ds) (List.cons.inj h).1))
      omega

/-- The bytes of a number's digits. -/
def digitBytes (n : Nat) : List UInt8 := (digits n).map byte

theorem utf8_digits (n : Nat) : utf8 (digits n) = digitBytes n := by
  have hlt : ∀ c ∈ digits n, c.toNat < 128 := fun c hc => by
    have := toNat_of_isDigit (isDigit_of_mem_digits n c hc)
    omega
  rw [digitBytes]
  generalize digits n = cs at hlt
  induction cs with
  | nil => rfl
  | cons c cs ih =>
    rw [← List.singleton_append, utf8_append, utf8_ascii (hlt c List.mem_cons_self),
      ih fun d hd => hlt d (List.mem_cons_of_mem c hd)]
    rfl

theorem isDigit_digitBytes (n : Nat) : ∀ b ∈ digitBytes n, isDigit b = true := by
  intro b hb
  obtain ⟨c, hc, rfl⟩ := List.mem_map.mp hb
  have hd := toNat_of_isDigit (isDigit_of_mem_digits n c hc)
  have hb : (byte c).toNat = c.toNat := toNat_byte (by omega)
  simp only [isDigit, Bool.and_eq_true, decide_eq_true_eq, UInt8.le_iff_toNat_le, hb]
  exact hd

theorem digitsValue_digitBytes (n : Nat) : digitsValue ((digitBytes n).map ofByte) = n := by
  have hback : (digitBytes n).map ofByte = digits n := by
    rw [digitBytes, List.map_map]
    refine (List.map_congr_left fun c hc => ?_).trans (List.map_id _)
    have := toNat_of_isDigit (isDigit_of_mem_digits n c hc)
    exact ofByte_byte (by omega)
  rw [hback, digitsValue_digits]

theorem exists_digitBytes (n : Nat) : ∃ b bs, digitBytes n = b :: bs ∧ isDigit b = true := by
  cases h : digitBytes n with
  | nil => exact absurd (List.map_eq_nil_iff.mp h) (digits_ne_nil n)
  | cons b bs => exact ⟨b, bs, rfl, isDigit_digitBytes n b (h ▸ List.mem_cons_self)⟩

theorem wholeRun?_digitBytes (n : Nat) {rest : List UInt8} (hr : Stops rest) :
    wholeRun? (digitBytes n ++ rest) = some (digitBytes n, rest) := by
  have hstop : ∀ b ∈ rest.head?, isDigit b = false := fun b hb => (hr b hb).1
  have htake := takeWhile_run (isDigit_digitBytes n) hstop
  have hdrop := dropWhile_run (isDigit_digitBytes n) hstop
  cases hd : digits n with
  | nil => exact absurd hd (digits_ne_nil n)
  | cons c cs =>
    have hb : digitBytes n = byte c :: cs.map byte := by rw [digitBytes, hd, List.map_cons]
    rw [hb] at htake hdrop ⊢
    rw [List.cons_append] at htake hdrop ⊢
    rw [wholeRun?]
    by_cases h0 : byte c = byte '0'
    · -- a number with more digits does not begin with zero
      have hc := toNat_of_isDigit (isDigit_of_mem_digits n c (hd ▸ List.mem_cons_self))
      have hc0 : c = '0' := by
        rw [← ofByte_byte (c := c) (by omega), h0, ofByte_byte (by decide)]
      subst hc0
      obtain rfl := eq_zero_of_digits hd
      have hcs : cs = [] := by
        rw [digits, if_pos (by decide)] at hd
        exact (List.cons.inj hd).2.symm
      rw [if_pos h0, hcs]
      rfl
    · rw [if_neg h0, digitRun?, htake, hdrop]

theorem skipFraction?_stops {rest : List UInt8} (hr : Stops rest) :
    skipFraction? rest = some (false, rest) := by
  cases rest with
  | nil => rfl
  | cons r rest => rw [skipFraction?, if_neg (hr r rfl).2.1]

theorem skipExponent?_stops {rest : List UInt8} (hr : Stops rest) :
    skipExponent? rest = some (false, rest) := by
  cases rest with
  | nil => rfl
  | cons r rest =>
    have hne : ¬ (r = byte 'e' ∨ r = byte 'E') := not_or.mpr (hr r rfl).2.2
    rw [skipExponent?.eq_def]
    simp only [if_neg hne]

theorem number?_digitBytes (negative : Bool) (n : Nat) {rest : List UInt8} (hr : Stops rest) :
    number? negative (digitBytes n ++ rest) =
      some (numberOf negative true (digitBytes n), rest) := by
  rw [number?, wholeRun?_digitBytes n hr]
  simp [skipFraction?_stops hr, skipExponent?_stops hr]

theorem scalar_finds {bs rest : List UInt8} {v : Json} (h : scalar? bs = some (v, rest)) :
    (scalar bs).Finds v rest := by
  unfold scalar
  split
  · next h' => rw [h] at h'; cases h'
  · next v' r h' =>
    rw [h] at h'
    obtain ⟨rfl, rfl⟩ := Prod.mk.inj (Option.some.inj h')
    exact found_finds.mpr ⟨rfl, rfl⟩

/-- A value that begins with neither a blank nor the mark of a string, array or object. -/
theorem value_scalar {b : UInt8} {bs rest : List UInt8} {v : Json}
    (hb : isSpace b = false ∧ b ≠ byte '"' ∧ b ≠ byte '[' ∧ b ≠ byte '\x7b')
    (h : scalar? (b :: bs) = some (v, rest)) : (value (b :: bs)).Finds v rest := by
  obtain ⟨hs, hq, ha, ho⟩ := hb
  rw [value]
  simp only [hs, Bool.false_eq_true, if_false, if_neg hq, if_neg ha, if_neg ho]
  exact scalar_finds h

/-- A digit begins a number and nothing else. -/
theorem isDigit_classes {b : UInt8} (h : isDigit b = true) :
    (isSpace b = false ∧ b ≠ byte '"' ∧ b ≠ byte '[' ∧ b ≠ byte '\x7b') ∧ b ≠ byte ']' ∧
      b ≠ byte '-' := by
  have hne : ∀ c, isDigit c = false → b ≠ c := by
    rintro c hc rfl
    rw [h] at hc
    cases hc
  have hs : isSpace b = false := by
    simp only [isSpace, Bool.or_eq_false_iff, beq_eq_false_iff_ne]
    exact ⟨⟨⟨hne _ (by decide), hne _ (by decide)⟩, hne _ (by decide)⟩, hne _ (by decide)⟩
  exact ⟨⟨hs, hne _ (by decide), hne _ (by decide), hne _ (by decide)⟩, hne _ (by decide),
    hne _ (by decide)⟩

theorem says_decimal (n : Nat) : Says (utf8 (decimal n).toList) (.integer n) := by
  rw [decimal, String.toList_ofList, utf8_digits]
  obtain ⟨b, bs, hb, hd⟩ := exists_digitBytes n
  obtain ⟨hclass, hend, hsign⟩ := isDigit_classes hd
  refine ⟨⟨b, bs, hb, hclass.1, hend⟩, fun rest hr => ?_⟩
  have hn := number?_digitBytes false n hr
  rw [hb, List.cons_append] at hn ⊢
  refine value_scalar hclass ?_
  rw [scalar?, if_neg hsign, if_pos hd, hn, ← hb]
  simp [numberOf, digitsValue_digitBytes]

/-- A negative integer, which is not minus zero. -/
theorem says_negative {n : Nat} (hn : n ≠ 0) :
    Says (byte '-' :: digitBytes n) (.integer (-(n : Int))) := by
  refine ⟨⟨_, _, rfl, by decide, by decide⟩, fun rest hr => ?_⟩
  rw [List.cons_append]
  refine value_scalar (by decide) ?_
  rw [scalar?, if_pos rfl, number?_digitBytes true n hr]
  simp [numberOf, digitsValue_digitBytes, hn]

theorem says_signed (i : Int) : Says (utf8 (signed i).toList) (.integer i) := by
  unfold signed
  by_cases hi : i < 0
  · have hbytes : utf8 ("-" ++ decimal i.natAbs).toList = byte '-' :: digitBytes i.natAbs := by
      rw [← utf8_digits, decimal]
      simp only [String.toList_append, String.toList_ofList, utf8_append]
      rfl
    have hsays := says_negative (n := i.natAbs) (by omega)
    rw [show -(i.natAbs : Int) = i by omega] at hsays
    rw [if_pos hi, hbytes]
    exact hsays
  · rw [if_neg hi]
    have hsays := says_decimal i.natAbs
    rw [show (i.natAbs : Int) = i by omega] at hsays
    exact hsays

theorem word?_append (word : String) (rest : List UInt8) :
    word? word (utf8 word.toList ++ rest) = some rest := by
  rw [word?]
  simp

theorem says_boolean (b : Bool) :
    Says (utf8 (if b then "true" else "false").toList) (.boolean b) := by
  cases b with
  | true =>
    have hw := word?_append "true"
    refine ⟨⟨byte 't', _, rfl, by decide, by decide⟩, fun rest _ => ?_⟩
    refine value_scalar (b := byte 't') (by decide) ?_
    rw [scalar?, if_neg (by decide), if_neg (by decide), if_pos rfl]
    exact congrArg (Option.map _) (hw rest)
  | false =>
    have hw := word?_append "false"
    refine ⟨⟨byte 'f', _, rfl, by decide, by decide⟩, fun rest _ => ?_⟩
    refine value_scalar (b := byte 'f') (by decide) ?_
    rw [scalar?, if_neg (by decide), if_neg (by decide), if_neg (by decide), if_pos rfl]
    exact congrArg (Option.map _) (hw rest)

/-! ### Arrays and objects -/

/-- Texts with a comma before each. -/
def commaBytes (texts : List String) : List UInt8 :=
  texts.flatMap fun t => byte ',' :: utf8 t.toList

theorem commaBytes_nil : commaBytes [] = [] := rfl

theorem commaBytes_cons (t : String) (ts : List String) :
    commaBytes (t :: ts) = byte ',' :: (utf8 t.toList ++ commaBytes ts) := rfl

theorem utf8_join : ∀ (s : String) (ss : List String),
    utf8 (join (s :: ss)).toList = utf8 s.toList ++ commaBytes ss
  | s, [] => by simp [join, commaBytes]
  | s, t :: ts => by
    rw [join, String.toList_append, String.toList_append, utf8_append, utf8_append, utf8_join t ts,
      commaBytes_cons, List.append_assoc]
    · rfl
    · simp

/-- After a value in a list come a comma or the mark that ends the list. -/
theorem stops_commaBytes (texts : List String) (close : UInt8)
    (hc : close ∈ [byte ']', byte '\x7d']) (rest : List UInt8) :
    Stops (commaBytes texts ++ close :: rest) := by
  cases texts with
  | nil => exact stops_cons (List.mem_cons_of_mem _ hc)
  | cons t ts => exact stops_cons List.mem_cons_self

theorem moreElements_finds {texts : List String} {vs : List Json}
    (h : List.Forall₂ (fun t v => Says (utf8 t.toList) v) texts vs) (rest : List UInt8) :
    (moreElements (commaBytes texts ++ byte ']' :: rest)).Finds vs rest := by
  induction h with
  | nil =>
    rw [commaBytes_nil, List.nil_append, moreElements]
    simp [show isSpace (byte ']') = false by decide]
  | @cons t v ts vs hv _ ih =>
    have hread := hv.reads _ (stops_commaBytes ts (byte ']') (by decide) rest)
    rw [commaBytes_cons, List.cons_append, List.append_assoc, moreElements]
    simp only [show isSpace (byte ',') = false by decide, show byte ',' ≠ byte ']' by decide,
      Bool.false_eq_true, if_false, if_true, bind_finds, within_finds, map_finds]
    exact ⟨v, _, hread.size_lt, hread, vs, ih, rfl⟩

theorem says_writeArray {texts : List String} {vs : List Json}
    (h : List.Forall₂ (fun t v => Says (utf8 t.toList) v) texts vs) :
    Says (utf8 (writeArray texts).toList) (.array vs) := by
  have hbytes : utf8 (writeArray texts).toList =
      byte '[' :: (utf8 (join texts).toList ++ [byte ']']) := by
    rw [writeArray, String.toList_append, String.toList_append, utf8_append, utf8_append]
    rfl
  rw [hbytes]
  refine ⟨⟨_, _, rfl, by decide, by decide⟩, fun rest _ => ?_⟩
  rw [List.cons_append, List.append_assoc, value]
  simp only [show isSpace (byte '[') = false by decide, show byte '[' ≠ byte '"' by decide,
    Bool.false_eq_true, if_false, if_true, within_finds, map_finds]
  refine ⟨vs, ?_, rfl⟩
  cases h with
  | nil =>
    rw [join, List.singleton_append, show utf8 "".toList = [] from rfl, List.nil_append, elements]
    simp [show isSpace (byte ']') = false by decide]
  | @cons t v ts vs hv hvs =>
    obtain ⟨b, bs, hb, hs, hend⟩ := hv.begins
    have hread := hv.reads _ (stops_commaBytes ts (byte ']') (by decide) rest)
    rw [utf8_join, List.append_assoc, List.singleton_append]
    rw [hb, List.cons_append] at hread ⊢
    rw [elements]
    simp only [hs, Bool.false_eq_true, if_false, if_neg hend, bind_finds, within_finds, map_finds]
    exact ⟨v, _, hread.size_lt, hread, vs, moreElements_finds hvs rest, rfl⟩

/-- A member as it is written. -/
def memberText (m : String × String) : String := quote m.1 ++ ":" ++ m.2

theorem utf8_memberText (m : String × String) : utf8 (memberText m).toList =
    byte '"' :: (utf8 (m.1.toList.flatMap escapeChar) ++
      byte '"' :: byte ':' :: utf8 m.2.toList) := by
  rw [memberText, String.toList_append, String.toList_append, utf8_append, utf8_append, utf8_quote]
  simp only [List.cons_append, List.append_assoc]
  rfl

theorem member_finds {m : String × String} {v : Json} (h : Says (utf8 m.2.toList) v)
    {rest : List UInt8} (hr : Stops rest) :
    (member (utf8 (memberText m).toList ++ rest)).Finds (some m.1, v) rest := by
  have hkey := stringBody_finds m.1 (byte ':' :: (utf8 m.2.toList ++ rest))
  rw [utf8_memberText, List.cons_append, List.append_assoc, List.cons_append, List.cons_append,
    member]
  simp only [show isSpace (byte '"') = false by decide, Bool.false_eq_true, if_false, if_true,
    bind_finds, within_finds, map_finds]
  refine ⟨some m.1, _, hkey.size_lt, hkey, (), utf8 m.2.toList ++ rest, by simp, ?_, v,
    h.reads rest hr, rfl⟩
  rw [mark, if_pos rfl]
  exact found_finds.mpr ⟨rfl, rfl⟩

/-- A member says a key and a value. -/
def MemberSays (m : String × String) (v : Option String × Json) : Prop :=
  v.1 = some m.1 ∧ Says (utf8 m.2.toList) v.2

theorem moreMembers_finds {ms : List (String × String)} {vs : List (Option String × Json)}
    (h : List.Forall₂ MemberSays ms vs) (rest : List UInt8) :
    (moreMembers (commaBytes (ms.map memberText) ++ byte '\x7d' :: rest)).Finds vs rest := by
  induction h with
  | nil =>
    rw [List.map_nil, commaBytes_nil, List.nil_append, moreMembers]
    simp [show isSpace (byte '\x7d') = false by decide]
  | @cons m v ms vs hv _ ih =>
    obtain ⟨key, v⟩ := v
    obtain ⟨rfl, hv⟩ := hv
    have hread := member_finds hv (stops_commaBytes (ms.map memberText) (byte '\x7d') (by decide) rest)
    rw [List.map_cons, commaBytes_cons, List.cons_append, List.append_assoc, moreMembers]
    simp only [show isSpace (byte ',') = false by decide, show byte ',' ≠ byte '\x7d' by decide,
      Bool.false_eq_true, if_false, if_true, bind_finds, within_finds, map_finds]
    exact ⟨_, _, hread.size_lt, hread, vs, ih, rfl⟩

theorem says_writeObject {ms : List (String × String)} {vs : List (Option String × Json)}
    (h : List.Forall₂ MemberSays ms vs) :
    Says (utf8 (writeObject ms).toList) (.object vs) := by
  have hbytes : utf8 (writeObject ms).toList =
      byte '\x7b' :: (utf8 (join (ms.map memberText)).toList ++ [byte '\x7d']) := by
    rw [writeObject, String.toList_append, String.toList_append, utf8_append, utf8_append]
    rfl
  rw [hbytes]
  refine ⟨⟨_, _, rfl, by decide, by decide⟩, fun rest _ => ?_⟩
  rw [List.cons_append, List.append_assoc, value]
  simp only [show isSpace (byte '\x7b') = false by decide, show byte '\x7b' ≠ byte '"' by decide,
    show byte '\x7b' ≠ byte '[' by decide, Bool.false_eq_true, if_false, if_true, within_finds,
    map_finds]
  refine ⟨vs, ?_, rfl⟩
  cases h with
  | nil =>
    rw [List.map_nil, join, List.singleton_append, show utf8 "".toList = [] from rfl,
      List.nil_append, members]
    simp [show isSpace (byte '\x7d') = false by decide]
  | @cons m v ms vs hv hvs =>
    obtain ⟨key, v⟩ := v
    obtain ⟨rfl, hv⟩ := hv
    have hread := member_finds hv (stops_commaBytes (ms.map memberText) (byte '\x7d') (by decide) rest)
    rw [List.map_cons, utf8_join, List.append_assoc, List.singleton_append]
    rw [utf8_memberText, List.cons_append] at hread ⊢
    rw [members]
    simp only [show isSpace (byte '"') = false by decide, show byte '"' ≠ byte '\x7d' by decide,
      Bool.false_eq_true, if_false, bind_finds, within_finds, map_finds]
    exact ⟨_, _, hread.size_lt, hread, vs, moreMembers_finds hvs rest, rfl⟩

end Json

end StackScript
