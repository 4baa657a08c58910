/-
# The stream of tokens

The tokens of a source come one by one: each is read at the end of the one before, from the start
of the source on, until the mark for its end is read. `Stream` says this of the single readings.
`tokens` reads all of them at once without going back to the source; the two agree, because a
token ends where the text after it begins (`next?_eq_some`).

Key definitions: `Stream`, `Token.move`.
Key theorems: `lexeme_cases`, `tokens_move`, `stream_iff`, `stream_start_iff`.
-/
import StackScript.Token.Lexer

namespace StackScript

/-- The tokens that are read from the byte `cursor` of a source on. -/
inductive Stream (source : List Char) : Nat → List Token → Prop
  | finish {cursor t} : read? source cursor = some t → t.kind = .finish → Stream source cursor []
  | token {cursor t ts} : read? source cursor = some t → t.kind ≠ .finish →
      Stream source t.stop ts → Stream source cursor (t :: ts)

/-- A word is an identifier, or it is reserved for its kind. -/
theorem ofWord_eq_or_mem (word : List Char) :
    Kind.ofWord word = .identifier ∨ (String.ofList word, Kind.ofWord word) ∈ Kind.reserved := by
  unfold Kind.ofWord
  cases h : Kind.reserved.lookup (String.ofList word) with
  | none => exact .inl rfl
  | some k =>
    obtain ⟨l, l', he, -⟩ := List.lookup_eq_some_iff.mp h
    right
    rw [he, Option.getD_some]
    simp

theorem ofWord_ne_finish (word : List Char) : Kind.ofWord word ≠ .finish := by
  have hr : ∀ p ∈ Kind.reserved, p.2 ≠ .finish := by decide
  rcases ofWord_eq_or_mem word with h | h
  · simp [h]
  · exact hr _ h

/-- The kinds of marks are neither for words, literals nor the end. -/
theorem markLexeme_kind (c : Char) (cs : List Char) :
    (markLexeme c cs).kind ∉ [.finish, .identifier, .integer, .string] := by
  have hm : (Kind.ofMark? c).getD .invalid ∉ [.finish, .identifier, .integer, .string] := by
    unfold Kind.ofMark?
    split <;> decide
  unfold markLexeme
  split
  · next d rest =>
    split
    · next k hk =>
      unfold Kind.ofPair? at hk
      split at hk
      · split at hk <;> cases hk <;> simp
      · simp at hk
    · exact hm
  · exact hm

/-- The first character says what a token is: a string, a word, a number or a mark. -/
theorem lexeme_cases (c : Char) :
    (c = '"' ∧ ∀ cs, lexeme c cs = stringLexeme cs) ∨
    (isLetter c = true ∧ ∀ cs, lexeme c cs = ⟨Kind.ofWord (c :: cs.takeWhile isWordChar),
      c :: cs.takeWhile isWordChar, cs.dropWhile isWordChar⟩) ∨
    (∀ cs, lexeme c cs = ⟨.integer, c :: cs.takeWhile isWordChar, cs.dropWhile isWordChar⟩) ∨
    ∀ cs, lexeme c cs = markLexeme c cs := by
  unfold lexeme
  by_cases hq : c = '"'
  · exact .inl ⟨hq, fun cs => by rw [if_pos hq]⟩
  · simp only [if_neg hq]
    by_cases hl : isLetter c = true
    · exact .inr (.inl ⟨hl, fun cs => by rw [if_pos hl]⟩)
    · simp only [if_neg hl]
      by_cases hd : c.isDigit = true
      · exact .inr (.inr (.inl fun cs => by rw [if_pos hd]))
      · exact .inr (.inr (.inr fun cs => by rw [if_neg hd]))

/-- No text is read as the mark for the end. -/
theorem lexeme_kind_ne_finish (c : Char) (cs : List Char) : (lexeme c cs).kind ≠ .finish := by
  rcases lexeme_cases c with ⟨-, hl⟩ | ⟨-, hl⟩ | hl | hl
  · rw [hl, stringLexeme]
    split <;> simp
  · rw [hl]
    exact ofWord_ne_finish _
  · simp [hl]
  · intro h
    rw [hl] at h
    exact markLexeme_kind c cs (by simp [h])

theorem next?_eq (n : Nat) (cs : List Char) : next? n cs =
    match (splitTrivia cs).2 with
    | [] => none
    | c :: ds => some (⟨(lexeme c ds).kind, (lexeme c ds).text, n + width (splitTrivia cs).1⟩,
        (lexeme c ds).rest) :=
  rfl

/-- A token is not the mark for the end, and it has its place in the text. -/
theorem next?_eq_some {offset : Nat} {cs rest : List Char} {t : Token}
    (h : next? offset cs = some (t, rest)) :
    ∃ skipped, cs = skipped ++ (t.text ++ rest) ∧ t.start = offset + width skipped ∧
      t.kind ≠ .finish := by
  obtain ⟨skipped, hcs, hstart, -⟩ := next?_splits h
  refine ⟨skipped, hcs, hstart, ?_⟩
  rw [next?_eq] at h
  cases hd : (splitTrivia cs).2 with
  | nil => simp [hd] at h
  | cons c ds =>
    rw [hd] at h
    obtain ⟨rfl, -⟩ := Prod.mk.inj (Option.some.inj h)
    exact lexeme_kind_ne_finish c ds

/-- A token `m` bytes further on. -/
def Token.move (m : Nat) (t : Token) : Token := { t with start := t.start + m }

/-- The tokens of a text that stands `m` bytes further on. -/
theorem tokens_move (m : Nat) : ∀ (n : Nat) (cs : List Char),
    tokens (n + m) cs = (tokens n cs).map (Token.move m)
  | n, cs => by
    have hnext : next? (n + m) cs = (next? n cs).map fun p => (p.1.move m, p.2) := by
      rw [next?_eq, next?_eq]
      cases (splitTrivia cs).2 with
      | nil => rfl
      | cons c ds => simp [Token.move, Nat.add_right_comm]
    rw [tokens_eq (n + m), tokens_eq n, hnext]
    cases hn : next? n cs with
    | none => rfl
    | some p =>
      obtain ⟨t, rest⟩ := p
      have hlt := length_rest_lt hn
      have hstop : (t.move m).stop = t.stop + m := by
        simp [Token.stop, Token.move, Nat.add_right_comm]
      simp only [Option.map_some, List.map_cons, hstop]
      rw [tokens_move m t.stop rest]
termination_by _ cs => cs.length

/-- There is one mark for the end of a source. -/
theorem read?_eq_finish {source : List Char} {cursor : Nat} {t : Token}
    (h : read? source cursor = some t) (ht : t.kind = .finish) : t = .finish (width source) := by
  obtain ⟨cs, -, hcs⟩ := Option.map_eq_some_iff.mp h
  cases hn : next? cursor cs with
  | none =>
    rw [hn] at hcs
    exact hcs.symm
  | some p =>
    obtain ⟨u, rest⟩ := p
    obtain ⟨-, -, -, hk⟩ := next?_eq_some hn
    rw [hn] at hcs
    obtain rfl : u = t := hcs
    exact absurd ht hk

/-- The text after a token is what the source has from the end of the token on. -/
theorem cut?_stop {source cs rest : List Char} {cursor : Nat} {t : Token}
    (hc : cut? source cursor = some cs) (h : next? cursor cs = some (t, rest)) :
    cut? source t.stop = some rest := by
  obtain ⟨a, rfl, rfl⟩ := exists_append_of_cut? hc
  obtain ⟨skipped, rfl, hs, -⟩ := next?_eq_some h
  have hw : t.stop = width (a ++ skipped ++ t.text) := by
    rw [Token.stop, hs]
    simp [Nat.add_assoc]
  rw [hw, ← List.append_assoc, ← List.append_assoc]
  exact cut?_append rest (a ++ skipped ++ t.text)

/-- The tokens of the text at a cursor are what comes from there on. -/
theorem stream_tokens {source : List Char} : ∀ {cursor : Nat} {cs : List Char},
    cut? source cursor = some cs → Stream source cursor (tokens cursor cs)
  | cursor, cs, hc => by
    rw [tokens_eq]
    cases hn : next? cursor cs with
    | none => exact .finish (t := Token.finish (width source)) (by simp [read?, hc, hn]) rfl
    | some p =>
      obtain ⟨t, rest⟩ := p
      obtain ⟨-, -, -, hk⟩ := next?_eq_some hn
      have hlt := length_rest_lt hn
      exact .token (by simp [read?, hc, hn]) hk (stream_tokens (cut?_stop hc hn))
termination_by _ cs => cs.length

/-- There is one stream from each cursor on. -/
theorem Stream.unique {source : List Char} : ∀ {cursor : Nat} {ts us : List Token},
    Stream source cursor ts → Stream source cursor us → ts = us
  | _, _, _, .finish _ _, .finish _ _ => rfl
  | _, _, _, .finish h hk, .token h' hk' _ => by
    rw [h] at h'
    exact absurd (Option.some.inj h' ▸ hk) hk'
  | _, _, _, .token h hk _, .finish h' hk' => by
    rw [h] at h'
    exact absurd (Option.some.inj h' ▸ hk') hk
  | _, _, _, .token h _ hs, .token h' _ hs' => by
    rw [h] at h'
    obtain rfl := Option.some.inj h'
    rw [hs.unique hs']

theorem stream_iff {source : List Char} {cursor : Nat} {cs : List Char}
    (hc : cut? source cursor = some cs) {ts : List Token} :
    Stream source cursor ts ↔ ts = tokens cursor cs := by
  constructor
  · exact fun h => h.unique (stream_tokens hc)
  · rintro rfl
    exact stream_tokens hc

/-- The stream of a whole source. -/
theorem stream_start_iff {source : List Char} {ts : List Token} :
    Stream source 0 ts ↔ ts = tokens 0 source :=
  stream_iff (cut?_append source [])

end StackScript
