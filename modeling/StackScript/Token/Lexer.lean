/-
# From text to tokens

Before a token there may be trivia: blanks, and comments from two slashes to the end of the
line. `splitTrivia` cuts them off. What follows is read by its first character: a quote begins
a string, which runs to the next quote that no backslash stands before; a letter begins a word
and a digit a number, both of which run on through letters and digits; other characters are
marks, of which the two-character ones go first. A character that begins nothing, and a string
that never ends, are invalid tokens.

Every token takes at least one character (`length_rest_lt`), so the tokens of a text are read
by recursion on its length. They tile it: trivia, token and rest make up the text again
(`next?_splits`).

Key definitions: `splitTrivia`, `lexeme`, `next?`, `tokens`, `read?`.
Key theorems: `append_splitTrivia`, `lexeme_text_append_rest`, `next?_splits`, `length_rest_lt`,
`tokens_eq`.
-/
import StackScript.Text.Classes
import StackScript.Token

namespace StackScript

/-- Letters, and the underscore, begin a word. -/
def isLetter (c : Char) : Bool := c == '_' || isAlphabetic c

/-- Letters and decimal digits go on with a word or number. -/
def isWordChar (c : Char) : Bool := isLetter c || c.isDigit

/-! ### Trivia -/

mutual

/-- The blanks and comments at the front of a text, and what follows them. -/
def splitTrivia : List Char → List Char × List Char
  | [] => ([], [])
  | '/' :: '/' :: cs =>
    let (skipped, rest) := splitComment cs
    ('/' :: '/' :: skipped, rest)
  | c :: cs =>
    if isBlank c then
      let (skipped, rest) := splitTrivia cs
      (c :: skipped, rest)
    else ([], c :: cs)

/-- The same inside a comment: the end of the line ends it, and is a blank itself. -/
def splitComment : List Char → List Char × List Char
  | [] => ([], [])
  | c :: cs =>
    if c = '\n' then
      let (skipped, rest) := splitTrivia cs
      (c :: skipped, rest)
    else
      let (skipped, rest) := splitComment cs
      (c :: skipped, rest)

end

/-! ### One token -/

/-- A stretch of text read as one token, and the text after it. -/
structure Lexeme where
  kind : Kind
  text : List Char
  rest : List Char

/-- The rest of a string through its closing quote, and what follows; a backslash takes the
character after it along. -/
def closeQuote? : List Char → Option (List Char × List Char)
  | [] => none
  | '"' :: cs => some (['"'], cs)
  | '\\' :: c :: cs => (closeQuote? cs).map fun (body, rest) => ('\\' :: c :: body, rest)
  | c :: cs => (closeQuote? cs).map fun (body, rest) => (c :: body, rest)

/-- The string after an opening quote. Without a closing quote nothing is left of the text. -/
def stringLexeme (cs : List Char) : Lexeme :=
  match closeQuote? cs with
  | some (body, rest) => ⟨.string, '"' :: body, rest⟩
  | none => ⟨.invalid, '"' :: cs, []⟩

/-- The mark that begins with `c`, the longer one if there are two. -/
def markLexeme (c : Char) (cs : List Char) : Lexeme :=
  match cs with
  | d :: rest =>
    match Kind.ofPair? c d with
    | some kind => ⟨kind, [c, d], rest⟩
    | none => ⟨(Kind.ofMark? c).getD .invalid, [c], cs⟩
  | [] => ⟨(Kind.ofMark? c).getD .invalid, [c], []⟩

/-- The token that begins with `c`. -/
def lexeme (c : Char) (cs : List Char) : Lexeme :=
  if c = '"' then stringLexeme cs
  else if isLetter c then
    let word := c :: cs.takeWhile isWordChar
    ⟨Kind.ofWord word, word, cs.dropWhile isWordChar⟩
  else if c.isDigit then ⟨.integer, c :: cs.takeWhile isWordChar, cs.dropWhile isWordChar⟩
  else markLexeme c cs

/-! ### All tokens -/

/-- The first token of a text that stands at the byte `offset`, and the text after it, if there
is more than trivia. -/
def next? (offset : Nat) (cs : List Char) : Option (Token × List Char) :=
  let (skipped, rest) := splitTrivia cs
  match rest with
  | [] => none
  | c :: cs =>
    let l := lexeme c cs
    some (⟨l.kind, l.text, offset + width skipped⟩, l.rest)

mutual

/-- Trivia and what follows them make up the text. -/
theorem append_splitTrivia : ∀ cs : List Char, (splitTrivia cs).1 ++ (splitTrivia cs).2 = cs
  | [] => by simp [splitTrivia]
  | [c] => by
    unfold splitTrivia
    split <;> simp_all
    split <;> simp_all [splitTrivia]
  | c :: d :: cs => by
    have h₁ := append_splitComment cs
    have h₂ := append_splitTrivia (d :: cs)
    unfold splitTrivia
    split <;> simp_all
    split <;> simp_all

/-- The same inside a comment. -/
theorem append_splitComment : ∀ cs : List Char, (splitComment cs).1 ++ (splitComment cs).2 = cs
  | [] => by simp [splitComment]
  | c :: cs => by
    have h₁ := append_splitTrivia cs
    have h₂ := append_splitComment cs
    unfold splitComment
    split <;> simp_all

end

/-- A closed string and what follows it make up the text. -/
theorem closeQuote?_append {cs body rest : List Char} (h : closeQuote? cs = some (body, rest)) :
    body ++ rest = cs := by
  fun_induction closeQuote? cs generalizing body rest with
  | case1 => simp at h
  | case2 cs =>
    simp only [Option.some.injEq, Prod.mk.injEq] at h
    obtain ⟨rfl, rfl⟩ := h
    rfl
  | case3 c cs ih =>
    simp only [Option.map_eq_some_iff, Prod.exists, Prod.mk.injEq] at h
    obtain ⟨b, r, hc, rfl, rfl⟩ := h
    simp [ih hc]
  | case4 c cs _ _ ih =>
    simp only [Option.map_eq_some_iff, Prod.exists, Prod.mk.injEq] at h
    obtain ⟨b, r, hc, rfl, rfl⟩ := h
    simp [ih hc]

/-- A token and what follows it make up the text. -/
theorem lexeme_text_append_rest (c : Char) (cs : List Char) :
    (lexeme c cs).text ++ (lexeme c cs).rest = c :: cs := by
  unfold lexeme
  split
  · subst c
    unfold stringLexeme
    split
    · next h => simp [closeQuote?_append h]
    · simp
  · split
    · simp
    · split
      · simp
      · unfold markLexeme
        split
        · split <;> simp
        · simp

/-- A token is not empty. -/
theorem lexeme_text_ne_nil (c : Char) (cs : List Char) : (lexeme c cs).text ≠ [] := by
  unfold lexeme stringLexeme markLexeme
  repeat' split
  all_goals simp

/-- A token, the trivia before it and the text after it make up the text. -/
theorem next?_splits {offset : Nat} {cs rest : List Char} {t : Token}
    (h : next? offset cs = some (t, rest)) :
    ∃ skipped, cs = skipped ++ (t.text ++ rest) ∧ t.start = offset + width skipped ∧
      t.text ≠ [] := by
  have hs := append_splitTrivia cs
  unfold next? at h
  simp only at h
  split at h
  · simp at h
  · next c ds hd =>
    simp only [Option.some.injEq, Prod.mk.injEq] at h
    obtain ⟨rfl, rfl⟩ := h
    refine ⟨(splitTrivia cs).1, ?_, rfl, lexeme_text_ne_nil c ds⟩
    rw [lexeme_text_append_rest, ← hd, hs]

/-- Less text is left after a token than before it. -/
theorem length_rest_lt {offset : Nat} {cs rest : List Char} {t : Token}
    (h : next? offset cs = some (t, rest)) : rest.length < cs.length := by
  obtain ⟨skipped, rfl, -, htext⟩ := next?_splits h
  have hpos := List.length_pos_iff.mpr htext
  rw [List.length_append, List.length_append]
  omega

/-- The tokens of a text that stands at the byte `offset`, without a mark for its end. -/
def tokens (offset : Nat) (cs : List Char) : List Token :=
  match _h : next? offset cs with
  | none => []
  | some (t, rest) => t :: tokens t.stop rest
termination_by cs.length
decreasing_by exact length_rest_lt _h

theorem tokens_eq (offset : Nat) (cs : List Char) :
    tokens offset cs =
      match next? offset cs with
      | none => []
      | some (t, rest) => t :: tokens t.stop rest := by
  rw [tokens]
  split <;> simp_all

/-- The token read at the byte `cursor` of a source, or the mark for its end. There is none if
the cursor is past the end or inside a character. -/
def read? (source : List Char) (cursor : Nat) : Option Token :=
  (cut? source cursor).map fun cs =>
    match next? cursor cs with
    | some (t, _) => t
    | none => Token.finish (width source)

/-- A token ends behind the cursor that it was read at, and inside the source. -/
theorem lt_stop_of_read? {source : List Char} {cursor : Nat} {t : Token}
    (h : read? source cursor = some t) (hk : t.kind ≠ .finish) :
    cursor < t.stop ∧ t.stop ≤ width source := by
  obtain ⟨cs, hcut, ht⟩ := Option.map_eq_some_iff.mp h
  obtain ⟨a, rfl, rfl⟩ := exists_append_of_cut? hcut
  cases hn : next? (width a) cs with
  | none =>
    rw [hn] at ht
    exact absurd (ht ▸ rfl) hk
  | some p =>
    obtain ⟨u, rest⟩ := p
    rw [hn] at ht
    obtain rfl : u = t := ht
    obtain ⟨skipped, rfl, hstart, htext⟩ := next?_splits hn
    have hpos := width_pos htext
    simp only [Token.stop, hstart, width_append]
    omega

end StackScript
