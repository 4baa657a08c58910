/-
# Tokens are longest matches

A token is known by its own text. Cut out of the source and read alone it is the same token again,
so no other kind goes with that text; and no longer piece of the source from the same place on is a
token, so nothing was left out that could have gone with it.

Both hold because a token depends on what follows it only where that could go on with it: a word or
number looks for the next character that is no letter or digit, a mark for an equals sign, and a
string for its closing quote. Nothing at all, a blank, or the text that followed anyway will do in
place of the rest of the source (`Lexeme.CanPrecede`), and leaves the token as it was
(`lexeme_again`). Only a string that is not closed would take in whatever follows. It is an invalid
token with nothing after it.

Key definition: `Lexeme.CanPrecede`.
Key theorems: `lexeme_again`, `symbols_again`, `stream_single_iff`, `token_longest_match`.
-/
import StackScript.Proofs.Tiling

namespace StackScript

/-! ### What can follow a token -/

/-- The text can stand after the token in place of its rest: it begins with a blank or as the rest
does, or is empty, and it is empty if the token may be a string that is not closed. -/
structure Lexeme.CanPrecede (l : Lexeme) (more : List Char) : Prop where
  head : ∀ d ∈ more.head?, isBlank d = true ∨ l.rest.head? = some d
  closed : l.kind ≠ .invalid ∨ l.rest ≠ [] ∨ more = []

namespace Lexeme.CanPrecede

variable {l : Lexeme}

/-- The rest of the text may be cut short. -/
theorem of_front {more : List Char} (h : more <+: l.rest) : l.CanPrecede more := by
  obtain ⟨tail, htail⟩ := h
  constructor
  case head =>
    intro d hd
    obtain ⟨ds, rfl⟩ := List.head?_eq_some_iff.mp hd
    exact .inr (by rw [← htail]; rfl)
  case closed =>
    by_cases hrest : l.rest = []
    · rw [hrest, List.append_eq_nil_iff] at htail
      exact .inr (.inr htail.1)
    · exact .inr (.inl hrest)

/-- A blank may follow. -/
theorem of_blank {b : Char} (hb : isBlank b = true) (more : List Char)
    (hl : l.kind ≠ .invalid ∨ l.rest ≠ []) : l.CanPrecede (b :: more) := by
  constructor
  case head =>
    intro d hd
    obtain rfl : b = d := Option.some.inj hd
    exact .inl hb
  case closed => exact hl.imp_right .inl

/-- The rest of the text may go on after a blank. -/
theorem of_blank_after {b : Char} (hb : isBlank b = true) (more : List Char)
    (hl : l.kind ≠ .invalid) : l.CanPrecede (l.rest ++ b :: more) := by
  refine ⟨?_, .inl hl⟩
  intro d hd
  cases hrest : l.rest with
  | nil =>
    rw [hrest] at hd
    obtain rfl : b = d := Option.some.inj hd
    exact .inl hb
  | cons e es =>
    rw [hrest] at hd
    exact .inr hd

end Lexeme.CanPrecede

/-! ### The same token before other text -/

/-- A closed string ends at the same quote whatever follows. -/
theorem closeQuote?_again {cs body rest : List Char} (h : closeQuote? cs = some (body, rest))
    (more : List Char) : closeQuote? (body ++ more) = some (body, more) := by
  fun_induction closeQuote? cs generalizing body rest with
  | case1 => simp at h
  | case2 cs =>
    simp only [Option.some.injEq, Prod.mk.injEq] at h
    obtain ⟨rfl, -⟩ := h
    rfl
  | case3 c cs ih =>
    simp only [Option.map_eq_some_iff, Prod.exists, Prod.mk.injEq] at h
    obtain ⟨b, r, hc, rfl, -⟩ := h
    simp [closeQuote?, ih hc]
  | case4 c cs hq hs ih =>
    simp only [Option.map_eq_some_iff, Prod.exists, Prod.mk.injEq] at h
    obtain ⟨b, r, hc, rfl, -⟩ := h
    rw [List.cons_append, closeQuote?, ih hc]
    · rfl
    · exact hq
    · rintro e es rfl -
      -- a lone backslash would leave nothing to close the string with
      cases cs with
      | nil => simp [closeQuote?] at hc
      | cons d ds => exact hs d ds rfl rfl

theorem stringLexeme_again {cs more : List Char} (h : (stringLexeme cs).CanPrecede more) :
    ∃ ds, (stringLexeme cs).text = '"' :: ds ∧
      stringLexeme (ds ++ more) = { stringLexeme cs with rest := more } := by
  have hclosed := h.closed
  unfold stringLexeme at hclosed ⊢
  cases hc : closeQuote? cs with
  | none =>
    obtain rfl : more = [] := by simpa [hc] using hclosed
    exact ⟨cs, rfl, by simp [hc]⟩
  | some p =>
    obtain ⟨body, rest⟩ := p
    exact ⟨body, rfl, by simp [closeQuote?_again hc]⟩

/-- No mark of two characters has a blank in the second place. -/
theorem ofPair?_blank {c d : Char} (h : isBlank d = true) : Kind.ofPair? c d = none := by
  have hd : d ≠ '=' := by
    rintro rfl
    revert h
    decide
  unfold Kind.ofPair?
  rw [if_neg hd]

theorem markLexeme_single {c : Char} {more : List Char}
    (h : ∀ d ∈ more.head?, Kind.ofPair? c d = none) :
    markLexeme c more = ⟨(Kind.ofMark? c).getD .invalid, [c], more⟩ := by
  cases more with
  | nil => rfl
  | cons d ds => simp [markLexeme, h d rfl]

theorem markLexeme_again {c : Char} {cs more : List Char}
    (h : (markLexeme c cs).CanPrecede more) :
    ∃ ds, (markLexeme c cs).text = c :: ds ∧
      markLexeme c (ds ++ more) = { markLexeme c cs with rest := more } := by
  cases hp : cs.head?.bind (Kind.ofPair? c) with
  | none =>
    have hsingle : ∀ d ∈ cs.head?, Kind.ofPair? c d = none := Option.bind_eq_none_iff.mp hp
    rw [markLexeme_single hsingle] at h ⊢
    refine ⟨[], rfl, markLexeme_single ?_⟩
    intro d hd
    exact (h.head d hd).elim ofPair?_blank (hsingle d)
  | some k =>
    obtain ⟨d, hd, hk⟩ := Option.bind_eq_some_iff.mp hp
    obtain ⟨ds, rfl⟩ := List.head?_eq_some_iff.mp hd
    exact ⟨[d], by simp [markLexeme, hk], by simp [markLexeme, hk]⟩

/-- A run of letters and digits ends before a blank, and where it ended before. -/
theorem endsWord_again {cs more : List Char} (h : ∀ d ∈ more.head?,
    isBlank d = true ∨ (cs.dropWhile isWordChar).head? = some d) : EndsWord more := by
  intro d hd
  rcases h d hd with hblank | hrest
  · exact Bool.eq_false_iff.mpr fun hw => by simp [isBlank_of_isWordChar hw] at hblank
  · obtain ⟨ds, hds⟩ := List.head?_eq_some_iff.mp hrest
    have hhead := List.head_dropWhile_not isWordChar (l := cs) (by simp [hds])
    simpa only [hds, List.head_cons] using hhead

/-- A token is the same before any text that can follow it. -/
theorem lexeme_again {c : Char} {cs more : List Char} (h : (lexeme c cs).CanPrecede more) :
    ∃ ds, (lexeme c cs).text = c :: ds ∧
      lexeme c (ds ++ more) = { lexeme c cs with rest := more } := by
  have hword : ∀ d ∈ cs.takeWhile isWordChar, isWordChar d = true :=
    fun d hd => List.all_eq_true.mp List.all_takeWhile d hd
  rcases lexeme_cases c with ⟨rfl, hl⟩ | ⟨-, hl⟩ | hl | hl
  · rw [hl] at h
    simp only [hl]
    exact stringLexeme_again h
  · rw [hl] at h
    have hends := endsWord_again h.head
    simp only [hl]
    exact ⟨_, rfl, by rw [takeWhile_run hword hends, dropWhile_run hword hends]⟩
  · rw [hl] at h
    have hends := endsWord_again h.head
    simp only [hl]
    exact ⟨_, rfl, by rw [takeWhile_run hword hends, dropWhile_run hword hends]⟩
  · rw [hl] at h
    simp only [hl]
    exact markLexeme_again h

/-- What a token has after its first character, and its rest, make up the text after that. -/
theorem lexeme_tail {c : Char} {cs ds : List Char} (h : (lexeme c cs).text = c :: ds) :
    ds ++ (lexeme c cs).rest = cs := by
  have happend := lexeme_text_append_rest c cs
  rw [h] at happend
  exact (List.cons.inj happend).2

/-! ### The same symbol before other text -/

/-- Where no trivia can be cut off, no blank and no comment begins. -/
theorem splitTrivia_eq_self_iff {c : Char} {cs : List Char} :
    splitTrivia (c :: cs) = ([], c :: cs) ↔
      isBlank c = false ∧ (c = '/' → cs.head? ≠ some '/') := by
  constructor
  · intro h
    constructor
    · cases hb : isBlank c with
      | false => rfl
      | true =>
        rw [splitTrivia_blank hb] at h
        cases (Prod.mk.inj h).1
    · rintro rfl hd
      obtain ⟨ds, rfl⟩ := List.head?_eq_some_iff.mp hd
      rw [splitTrivia_comment] at h
      cases (Prod.mk.inj h).1
  · rintro ⟨hb, hc⟩
    exact splitTrivia_lexeme hb hc

/-- A text that begins with a token, and not with trivia, has that symbol first, and then those of
the text that was put after the token. -/
theorem symbols_again {c : Char} {cs more : List Char}
    (hs : splitTrivia (c :: cs) = ([], c :: cs)) (h : (lexeme c cs).CanPrecede more) :
    symbols ((lexeme c cs).text ++ more) =
      ⟨(lexeme c cs).kind, (lexeme c cs).text⟩ :: symbols more := by
  obtain ⟨ds, htext, hagain⟩ := lexeme_again h
  obtain ⟨hblank, hslash⟩ := splitTrivia_eq_self_iff.mp hs
  have happend := lexeme_tail htext
  -- a comment could begin only with the slash that comes next, which is that of the old text
  have hslash' : c = '/' → (ds ++ more).head? ≠ some '/' := by
    intro hc hd
    cases ds with
    | nil =>
      rcases h.head '/' hd with hb | hr
      · revert hb
        decide
      · exact hslash hc (happend ▸ hr)
    | cons d ds => exact hslash hc (happend ▸ hd)
  rw [htext, List.cons_append, symbols_lexeme hblank hslash', hagain, ← htext]

/-- The text of a token has that symbol alone. -/
theorem symbols_text {c : Char} {cs : List Char} (hs : splitTrivia (c :: cs) = ([], c :: cs)) :
    symbols (lexeme c cs).text = [⟨(lexeme c cs).kind, (lexeme c cs).text⟩] := by
  have halone := symbols_again hs (.of_front List.nil_prefix)
  rwa [List.append_nil, symbols_nil] at halone

/-! ### Tokens read alone -/

/-- The token at a cursor is the lexeme at the front of what the source holds from its first byte
on. -/
theorem exists_lexeme_of_read? {source : List Char} {cursor : Nat} {t : Token}
    (h : read? source cursor = some t) (hk : t.kind ≠ .finish) :
    ∃ c ds, cut? source t.start = some (c :: ds) ∧ splitTrivia (c :: ds) = ([], c :: ds) ∧
      t.symbol = ⟨(lexeme c ds).kind, (lexeme c ds).text⟩ := by
  obtain ⟨b, hb, -⟩ := Option.map_eq_some_iff.mp h
  obtain ⟨a, rfl, rfl⟩ := exists_append_of_cut? hb
  cases hs : (splitTrivia b).2 with
  | nil =>
    rw [read?_finish hs] at h
    obtain rfl := Option.some.inj h
    exact absurd rfl hk
  | cons c ds =>
    rw [read?_token hs] at h
    obtain rfl := Option.some.inj h
    refine ⟨c, ds, ?_, hs ▸ splitTrivia_rest b, rfl⟩
    have hsplit : a ++ b = a ++ (splitTrivia b).1 ++ c :: ds := by
      rw [List.append_assoc, ← hs, append_splitTrivia]
    rw [hsplit, ← width_append, cut?_append]

/-- The readings of a text are one token that spans all of it, if the text has one symbol and that
is the whole text. -/
theorem stream_single_iff {kind : Kind} {text : List Char} :
    Stream text 0 [⟨kind, text, 0⟩] ↔ symbols text = [⟨kind, text⟩] := by
  rw [stream_start_iff, symbols]
  constructor
  · intro h
    rw [← h]
    rfl
  · intro h
    obtain ⟨t, ht, hsymbol⟩ := List.map_eq_singleton_iff.mp h
    have hkind : t.kind = kind := congrArg Symbol.kind hsymbol
    have htext : t.text = text := congrArg Symbol.text hsymbol
    have htiles := tiles_tokens 0 text
    rw [ht] at htiles ⊢
    generalize hcs : text = cs at htiles
    cases htiles with
    | @token _ gap rest _ _ _ hstart _ _ =>
      -- the token is as long as the text, so nothing stands before it
      have hlength := congrArg List.length hcs
      simp only [List.length_append, htext] at hlength
      obtain rfl : gap = [] := List.length_eq_zero_iff.mp (by omega)
      obtain ⟨_, _, start⟩ := t
      obtain rfl : _ = kind := hkind
      obtain rfl : start = 0 := hstart
      rw [← hcs]
      simp only at htext
      rw [htext]

/-- A token is read again from its own text, which it spans. -/
theorem stream_text {source : List Char} {cursor : Nat} {t : Token}
    (hread : read? source cursor = some t) (hkind : t.kind ≠ .finish) :
    Stream t.text 0 [⟨t.kind, t.text, 0⟩] := by
  obtain ⟨c, ds, -, hs, hsymbol⟩ := exists_lexeme_of_read? hread hkind
  have htext : t.text = (lexeme c ds).text := congrArg Symbol.text hsymbol
  rw [stream_single_iff, htext, symbols_text hs, ← hsymbol, ← htext]
  rfl

/-- A token is read again from its own text and spans it, and every token with that text is of the
same kind. It is at the front of what the source holds from its first byte on, and no longer front
of that is one token, of whatever kind. -/
theorem token_longest_match {source : List Char} {cursor : Nat} {t : Token}
    (hread : read? source cursor = some t) (hkind : t.kind ≠ .finish) :
    Stream t.text 0 [⟨t.kind, t.text, 0⟩] ∧
    (∀ other n u, read? other n = some u → u.kind ≠ .finish → u.text = t.text →
      u.kind = t.kind) ∧
    ∃ rest, cut? source t.start = some rest ∧ t.text <+: rest ∧
      ∀ longer, longer <+: rest → t.text.length < longer.length →
        ∀ kind, ¬ Stream longer 0 [⟨kind, longer, 0⟩] := by
  have halone := stream_text hread hkind
  refine ⟨halone, ?_, ?_⟩
  · intro other n u hu huk htext
    have halone' := stream_text hu huk
    rw [htext] at halone'
    have hsame := List.singleton_inj.mp (halone'.unique halone)
    exact (Token.mk.inj hsame).1
  · obtain ⟨c, ds, hcut, hs, hsymbol⟩ := exists_lexeme_of_read? hread hkind
    have htext : t.text = (lexeme c ds).text := congrArg Symbol.text hsymbol
    have hfront : t.text <+: c :: ds := ⟨(lexeme c ds).rest, by rw [htext, lexeme_text_append_rest]⟩
    refine ⟨c :: ds, hcut, hfront, ?_⟩
    intro longer hlonger hlength kind hstream
    obtain ⟨more, rfl⟩ := List.prefix_of_prefix_length_le hfront hlonger (by omega)
    -- the first symbol of the longer text is the token, which is not all of it
    have hmore : more <+: (lexeme c ds).rest := by
      rw [← lexeme_text_append_rest c ds, htext] at hlonger
      exact (List.prefix_append_right_inj _).mp hlonger
    have hsymbols := symbols_again hs (.of_front hmore)
    rw [← htext, stream_single_iff.mp hstream, List.cons.injEq, Symbol.mk.injEq] at hsymbols
    rw [hsymbols.1.2] at hlength
    omega

/-- The string has a quote in it that is escaped, and another quote follows. -/
theorem token_longest_match_quoted :
    read? "é \"a\\\"b\" \"".toList 2 = some ⟨.string, "\"a\\\"b\"".toList, 3⟩ ∧
    Stream "\"a\\\"b\"".toList 0 [⟨.string, "\"a\\\"b\"".toList, 0⟩] ∧
    (∀ other n u, read? other n = some u → u.kind ≠ .finish → u.text = "\"a\\\"b\"".toList →
      u.kind = .string) ∧
    ∃ rest, cut? "é \"a\\\"b\" \"".toList 3 = some rest ∧ "\"a\\\"b\"".toList <+: rest ∧
      ∀ longer, longer <+: rest → 6 < longer.length →
        ∀ kind, ¬ Stream longer 0 [⟨kind, longer, 0⟩] := by
  have hread : read? "é \"a\\\"b\" \"".toList 2 =
      some ⟨.string, "\"a\\\"b\"".toList, 3⟩ := by decide +kernel
  exact ⟨hread, token_longest_match hread (by decide)⟩

end StackScript
