/-
# The symbols of a text

What the tokens of a text are does not depend on where the text stands, so a text has a list of
symbols. It is read from the front: a blank is passed over, and any other text begins with the
symbol that `lexeme` says, unless a comment begins there. A word or number ends at the first
character that cannot go on with it, a mark of one character where no longer mark begins, and a
string at its closing quote, so each of these can be cut off the front of a text if what follows
is right (`symbols_word`, `symbols_number`, `symbols_mark`, `symbols_string`).

That letters are no blanks, marks or quotes is read off the tables of characters.

Key definitions: `symbols`, `EndsWord`, `IsName`.
Key theorems: `symbols_lexeme`, `isName_of_mem_tokens`.
-/
import StackScript.Proofs.Grammar
import StackScript.Proofs.TokenStream

namespace StackScript

/-! ### Classes of characters -/

theorem inRanges_iff {rs : List (Nat × Nat)} {n : Nat} :
    inRanges rs n = true ↔ ∃ r ∈ rs, r.1 ≤ n ∧ n ≤ r.2 := by
  induction rs with
  | nil => simp [inRanges]
  | cons r rs ih => simp [inRanges, ih]

/-- No range of the one table meets a range of the other. -/
theorem inRanges_disjoint {rs qs : List (Nat × Nat)} {n : Nat}
    (h : rs.all (fun r => qs.all fun q => q.2 < r.1 || r.2 < q.1) = true)
    (hr : inRanges rs n = true) : inRanges qs n = false := by
  obtain ⟨r, hr, hr₁, hr₂⟩ := inRanges_iff.mp hr
  refine Bool.eq_false_iff.mpr fun hq => ?_
  obtain ⟨q, hq, hq₁, hq₂⟩ := inRanges_iff.mp hq
  have hd := List.all_eq_true.mp (List.all_eq_true.mp h r hr) q hq
  simp only [Bool.or_eq_true, decide_eq_true_eq] at hd
  omega

/-- The code points of letters, the underscore among them. -/
def letterRanges : List (Nat × Nat) := (65, 90) :: (95, 95) :: (97, 122) :: alphabeticRanges

theorem inRanges_letterRanges {c : Char} (h : isLetter c = true) :
    inRanges letterRanges c.toNat = true := by
  rw [letterRanges]
  simp only [inRanges, Bool.or_eq_true, Bool.and_eq_true, decide_eq_true_eq]
  rw [isLetter, Bool.or_eq_true, beq_iff_eq, isAlphabetic] at h
  rcases h with rfl | h
  · decide
  · split at h
    · change (decide (65 ≤ c.val ∧ c.val ≤ 90) ||
        decide (97 ≤ c.val) && decide (c.val ≤ 122)) = true at h
      simp only [Bool.or_eq_true, Bool.and_eq_true, decide_eq_true_eq,
        UInt32.le_iff_toNat_le] at h
      change 65 ≤ c.toNat ∧ c.toNat ≤ 90 ∨ 97 ≤ c.toNat ∧ c.toNat ≤ 122 at h
      omega
    · simp [h]

/-- What begins a word or number is no blank. -/
theorem isBlank_of_isWordChar {c : Char} (h : isWordChar c = true) : isBlank c = false := by
  rw [isWordChar, Bool.or_eq_true] at h
  rcases h with h | h
  · exact inRanges_disjoint (by decide +kernel) (inRanges_letterRanges h)
  · have hd : inRanges [(48, 57)] c.toNat = true := by
      simpa [inRanges] using toNat_of_isDigit h
    exact inRanges_disjoint (by decide) hd

/-- A letter is no character of ASCII but those of the alphabets and the underscore. -/
theorem isLetter_ascii {c : Char} (h : isLetter c = true) (hc : c.toNat < 128) :
    65 ≤ c.toNat ∧ c.toNat ≤ 90 ∨ c.toNat = 95 ∨ 97 ≤ c.toNat ∧ c.toNat ≤ 122 := by
  have hb : ∀ q ∈ alphabeticRanges, 128 ≤ q.1 := by decide +kernel
  have hr := inRanges_letterRanges h
  rw [letterRanges, inRanges_iff] at hr
  obtain ⟨r, hr, hr₁, hr₂⟩ := hr
  simp only [List.mem_cons] at hr
  rcases hr with rfl | rfl | rfl | hr
  · omega
  · omega
  · omega
  · have := hb r hr
    omega

/-! ### Trivia from the front of a text -/

theorem splitTrivia_comment (cs : List Char) :
    splitTrivia ('/' :: '/' :: cs) = ('/' :: '/' :: (splitComment cs).1, (splitComment cs).2) := by
  rw [splitTrivia]

theorem splitTrivia_blank {c : Char} (h : isBlank c = true) (cs : List Char) :
    splitTrivia (c :: cs) = (c :: (splitTrivia cs).1, (splitTrivia cs).2) := by
  rw [splitTrivia]
  · simp [h]
  · rintro ds rfl -
    revert h
    decide

/-- What is no blank and begins no comment ends the trivia. -/
theorem splitTrivia_lexeme {c : Char} (hb : isBlank c = false) {cs : List Char}
    (hc : c = '/' → cs.head? ≠ some '/') : splitTrivia (c :: cs) = ([], c :: cs) := by
  rw [splitTrivia]
  · simp [hb]
  · rintro ds rfl rfl
    exact hc rfl rfl

/-! ### Symbols from the front of a text -/

/-- The symbols that a text is made of. -/
def symbols (cs : List Char) : List Symbol := (tokens 0 cs).map Token.symbol

theorem Token.symbol_move (m : Nat) (t : Token) : (t.move m).symbol = t.symbol := rfl

/-- The symbols of a text do not depend on where it stands. -/
theorem map_symbol_tokens (m n : Nat) (cs : List Char) :
    (tokens m cs).map Token.symbol = (tokens n cs).map Token.symbol := by
  have hstart : ∀ k, (tokens k cs).map Token.symbol = (tokens 0 cs).map Token.symbol := by
    intro k
    have hmove := tokens_move k 0 cs
    rw [Nat.zero_add] at hmove
    rw [hmove, List.map_map]
    exact List.map_congr_left fun t _ => t.symbol_move k
  rw [hstart m, hstart n]

/-- A text has the symbol at its front, after trivia, and those of the text after that. -/
theorem symbols_eq (cs : List Char) : symbols cs =
    match (splitTrivia cs).2 with
    | [] => []
    | c :: ds => ⟨(lexeme c ds).kind, (lexeme c ds).text⟩ :: symbols (lexeme c ds).rest := by
  rw [symbols, tokens_eq, next?]
  simp only
  cases (splitTrivia cs).2 with
  | nil => rfl
  | cons c ds =>
    simp only [List.map_cons]
    rw [map_symbol_tokens _ 0]
    rfl

@[simp] theorem symbols_nil : symbols [] = [] := by
  rw [symbols_eq]
  simp [splitTrivia]

/-- A blank is passed over. -/
theorem symbols_blank {c : Char} (h : isBlank c = true) (cs : List Char) :
    symbols (c :: cs) = symbols cs := by
  rw [symbols_eq (c :: cs), symbols_eq cs, splitTrivia_blank h]

/-- What is no blank and begins no comment begins a symbol. -/
theorem symbols_lexeme {c : Char} (hb : isBlank c = false) {cs : List Char}
    (hc : c = '/' → cs.head? ≠ some '/') :
    symbols (c :: cs) =
      ⟨(lexeme c cs).kind, (lexeme c cs).text⟩ :: symbols (lexeme c cs).rest := by
  rw [symbols_eq, splitTrivia_lexeme hb hc]

/-! ### Words, numbers, marks and strings -/

/-- No character that goes on with a word or number stands here. -/
def EndsWord (cs : List Char) : Prop := ∀ c ∈ cs.head?, isWordChar c = false

theorem endsWord_cons {c : Char} {cs : List Char} :
    EndsWord (c :: cs) ↔ isWordChar c = false := by
  simp [EndsWord]

/-- A run of elements of a class ends where the next element is not of it. -/
theorem takeWhile_run {α : Type} {p : α → Bool} {as rest : List α} (ha : ∀ a ∈ as, p a = true)
    (hr : ∀ a ∈ rest.head?, p a = false) : (as ++ rest).takeWhile p = as := by
  rw [List.takeWhile_append_of_pos ha]
  cases rest with
  | nil => simp
  | cons r rest => simp [hr r rfl]

theorem dropWhile_run {α : Type} {p : α → Bool} {as rest : List α} (ha : ∀ a ∈ as, p a = true)
    (hr : ∀ a ∈ rest.head?, p a = false) : (as ++ rest).dropWhile p = rest := by
  rw [List.dropWhile_append_of_pos ha]
  cases rest with
  | nil => simp
  | cons r rest => simp [hr r rfl]

theorem symbols_word {c : Char} {cs rest : List Char} (hc : isLetter c = true)
    (hcs : ∀ d ∈ cs, isWordChar d = true) (hr : EndsWord rest) :
    symbols (c :: (cs ++ rest)) = ⟨Kind.ofWord (c :: cs), c :: cs⟩ :: symbols rest := by
  have hw : isWordChar c = true := by simp [isWordChar, hc]
  have hq : c ≠ '"' := by
    rintro rfl
    revert hc
    decide
  have hs : c ≠ '/' := by
    rintro rfl
    revert hc
    decide
  rw [symbols_lexeme (isBlank_of_isWordChar hw) (fun h => absurd h hs), lexeme, if_neg hq,
    if_pos hc]
  simp only [takeWhile_run hcs hr, dropWhile_run hcs hr]

theorem symbols_number {c : Char} {cs rest : List Char} (hc : c.isDigit = true)
    (hcs : ∀ d ∈ cs, isWordChar d = true) (hr : EndsWord rest) :
    symbols (c :: (cs ++ rest)) = ⟨.integer, c :: cs⟩ :: symbols rest := by
  have hw : isWordChar c = true := by simp [isWordChar, hc]
  have hd := toNat_of_isDigit hc
  have hq : c ≠ '"' := by
    rintro rfl
    revert hc
    decide
  have hs : c ≠ '/' := by
    rintro rfl
    revert hc
    decide
  have hl : ¬ isLetter c = true := by
    intro hl
    have := isLetter_ascii hl (by omega)
    omega
  rw [symbols_lexeme (isBlank_of_isWordChar hw) (fun h => absurd h hs), lexeme, if_neg hq,
    if_neg hl, if_pos hc]
  simp only [takeWhile_run hcs hr, dropWhile_run hcs hr]

theorem symbols_string {body rest : List Char}
    (h : closeQuote? (body ++ '"' :: rest) = some (body ++ ['"'], rest)) :
    symbols ('"' :: (body ++ '"' :: rest)) =
      ⟨.string, '"' :: (body ++ ['"'])⟩ :: symbols rest := by
  rw [symbols_lexeme (by decide) (fun hc => absurd hc (by decide)), lexeme, if_pos rfl,
    stringLexeme, h]

/-- A mark is no blank, and begins no string, word or number. -/
theorem ofMark?_classes {c : Char} {k : Kind} (h : Kind.ofMark? c = some k) :
    isBlank c = false ∧ c ≠ '"' ∧ isLetter c = false ∧ c.isDigit = false := by
  unfold Kind.ofMark? at h
  split at h
  all_goals first | decide | simp at h

theorem symbols_mark {c : Char} {k : Kind} (hk : Kind.ofMark? c = some k) {rest : List Char}
    (hp : ∀ d ∈ rest.head?, Kind.ofPair? c d = none) (hs : c = '/' → rest.head? ≠ some '/') :
    symbols (c :: rest) = ⟨k, [c]⟩ :: symbols rest := by
  obtain ⟨hb, hq, hl, hd⟩ := ofMark?_classes hk
  rw [symbols_lexeme hb hs, lexeme, if_neg hq, if_neg (by simp [hl]), if_neg (by simp [hd])]
  cases rest with
  | nil => simp [markLexeme, hk]
  | cons d rest => simp [markLexeme, hp d rfl, hk]

theorem symbols_pair {c d : Char} {k : Kind} (hk : Kind.ofPair? c d = some k)
    (rest : List Char) : symbols (c :: d :: rest) = ⟨k, [c, d]⟩ :: symbols rest := by
  have hc : ∃ m, Kind.ofMark? c = some m ∧ c ≠ '/' := by
    unfold Kind.ofPair? at hk
    split at hk
    · split at hk
      all_goals first | exact ⟨_, rfl, by decide⟩ | simp at hk
    · simp at hk
  obtain ⟨m, hm, hs⟩ := hc
  obtain ⟨hb, hq, hl, hd⟩ := ofMark?_classes hm
  rw [symbols_lexeme hb (fun h => absurd h hs), lexeme, if_neg hq, if_neg (by simp [hl]),
    if_neg (by simp [hd])]
  simp [markLexeme, hk]

/-- The marks that are read the same whatever follows them. -/
def plainMarks : List Char := ['(', ')', '[', ']', '\x7b', '\x7d', ',', ';', '-']

theorem symbols_plain {c : Char} (h : c ∈ plainMarks) (rest : List Char) :
    symbols (c :: rest) = ⟨(Kind.ofMark? c).getD .invalid, [c]⟩ :: symbols rest := by
  have hc : plainMarks.all fun c =>
      (Kind.ofMark? c).isSome && c != '/' && decide (c ∉ ['=', '!', '>', '<']) := by decide
  obtain ⟨⟨hm, hs⟩, hp⟩ : ((Kind.ofMark? c).isSome ∧ c ≠ '/') ∧ c ∉ ['=', '!', '>', '<'] := by
    simpa using List.all_eq_true.mp hc c h
  obtain ⟨k, hk⟩ := Option.isSome_iff_exists.mp hm
  rw [hk]
  refine symbols_mark hk (fun d _ => ?_) (fun h => absurd h hs)
  unfold Kind.ofPair?
  split
  · split <;> simp_all
  · rfl

/-! ### Names -/

/-- The texts that can be names: letters and digits, a letter first, and not a reserved word. -/
def IsName (s : String) : Prop :=
  (∃ c cs, s.toList = c :: cs ∧ isLetter c = true ∧ ∀ d ∈ cs, isWordChar d = true) ∧
    s ∉ Kind.reserved.map Prod.fst

theorem ofWord_eq_identifier {word : List Char} :
    Kind.ofWord word = .identifier ↔ String.ofList word ∉ Kind.reserved.map Prod.fst := by
  constructor
  · intro h hm
    have hr : ∀ s ∈ Kind.reserved.map Prod.fst, Kind.ofWord s.toList ≠ .identifier := by decide
    exact hr _ hm (by rw [String.toList_ofList]; exact h)
  · intro h
    rcases ofWord_eq_or_mem word with hw | hw
    · exact hw
    · exact absurd (List.mem_map_of_mem hw) h

theorem symbols_name {s : String} (h : IsName s) {rest : List Char} (hr : EndsWord rest) :
    symbols (s.toList ++ rest) = ⟨.identifier, s.toList⟩ :: symbols rest := by
  obtain ⟨⟨c, cs, hs, hc, hcs⟩, hw⟩ := h
  have hk : Kind.ofWord s.toList = .identifier := by
    rw [ofWord_eq_identifier, String.ofList_toList]
    exact hw
  rw [hs] at hk ⊢
  rw [List.cons_append, symbols_word hc hcs hr, hk]

/-- What is read as an identifier is a name. -/
theorem isName_of_lexeme {c : Char} {cs : List Char} (h : (lexeme c cs).kind = .identifier) :
    IsName (String.ofList (lexeme c cs).text) := by
  rcases lexeme_cases c with ⟨-, hl⟩ | ⟨hc, hl⟩ | hl | hl
  · rw [hl, stringLexeme] at h
    split at h <;> simp at h
  · rw [hl] at h ⊢
    refine ⟨⟨c, cs.takeWhile isWordChar, by simp, hc, fun d hd => ?_⟩, ?_⟩
    · exact List.all_eq_true.mp List.all_takeWhile d hd
    · exact ofWord_eq_identifier.mp h
  · simp [hl] at h
  · rw [hl] at h
    exact absurd h fun he => markLexeme_kind c cs (by simp [he])

/-- A token is the lexeme at the front of some text, after its trivia. -/
theorem exists_lexeme_of_mem_tokens : ∀ {n : Nat} {cs : List Char} {t : Token}, t ∈ tokens n cs →
    ∃ as c ds, (splitTrivia as).2 = c :: ds ∧
      t.symbol = ⟨(lexeme c ds).kind, (lexeme c ds).text⟩
  | n, cs, t, ht => by
    rw [tokens_eq] at ht
    cases hn : next? n cs with
    | none => simp [hn] at ht
    | some p =>
      obtain ⟨u, rest⟩ := p
      have hlt := length_rest_lt hn
      rw [hn] at ht
      rcases List.mem_cons.mp ht with rfl | ht
      · unfold next? at hn
        simp only at hn
        split at hn
        · simp at hn
        · next c ds hs =>
          simp only [Option.some.injEq, Prod.mk.injEq] at hn
          obtain ⟨rfl, -⟩ := hn
          exact ⟨cs, c, ds, hs, rfl⟩
      · exact exists_lexeme_of_mem_tokens ht
termination_by _ cs => cs.length

theorem isName_of_mem_tokens {n : Nat} {cs : List Char} {t : Token} (ht : t ∈ tokens n cs)
    (hk : t.kind = .identifier) : IsName t.name := by
  obtain ⟨as, c, ds, -, hsymbol⟩ := exists_lexeme_of_mem_tokens ht
  have hkind : t.kind = (lexeme c ds).kind := congrArg Symbol.kind hsymbol
  have htext : t.text = (lexeme c ds).text := congrArg Symbol.text hsymbol
  rw [Token.name, htext]
  exact isName_of_lexeme (hkind ▸ hk)

end StackScript
