/-
# Tokens tile the source

What stands between two tokens is blanks and comments and nothing else. `Trivia` says this of a
stretch of text, and of the text after it, because a comment may run to the end of the source.
`splitTrivia` cuts off such a stretch (`trivia_splitTrivia`), and it cuts off all of it
(`splitTrivia_of_trivia`); so after the cut no trivia are left, and a token that is read again at
its own first byte is the same token.

A reading at a byte between two characters always gives a token. The token stands after the cursor
and inside the source, its ends fall between characters, and its text is what the source holds
from the one end to the other (`Token.ReadAt`). Read from the start and then from the end of each
token on, the tokens and the trivia before them make up the whole source (`Tiles`). Every token
takes a byte at least, so there are no more of them than bytes.

Key definitions: `IsBoundary`, `Spans`, `Trivia`, `Tiles`, `Token.ReadAt`.
Key theorems: `splitTrivia_of_trivia`, `readAt_of_boundary`, `tiles_tokens`, `reads_tile_source`.
-/
import StackScript.Proofs.Symbols

namespace StackScript

/-- The byte offset `n` stands between two characters of a source, or at one of its ends. -/
def IsBoundary (source : List Char) (n : Nat) : Prop := ∃ a b, source = a ++ b ∧ width a = n

/-- These are the bytes at which a source can be cut. -/
theorem isBoundary_iff_cut? {source : List Char} {n : Nat} :
    IsBoundary source n ↔ ∃ rest, cut? source n = some rest := by
  constructor
  · rintro ⟨a, b, rfl, rfl⟩
    exact ⟨b, cut?_append b a⟩
  · rintro ⟨b, hb⟩
    obtain ⟨a, rfl, rfl⟩ := exists_append_of_cut? hb
    exact ⟨a, b, rfl, rfl⟩

/-- The text is what a source holds from the byte `m` to the byte `n`. -/
def Spans (source : List Char) (m n : Nat) (text : List Char) : Prop :=
  ∃ a b, source = a ++ (text ++ b) ∧ width a = m ∧ width (a ++ text) = n

theorem Spans.isBoundary {source text : List Char} {m n : Nat} (h : Spans source m n text) :
    IsBoundary source m ∧ IsBoundary source n := by
  obtain ⟨a, b, hsource, hm, hn⟩ := h
  exact ⟨⟨a, text ++ b, hsource, hm⟩, ⟨a ++ text, b, by rw [hsource, List.append_assoc], hn⟩⟩

theorem Spans.le {source text : List Char} {m n : Nat} (h : Spans source m n text) :
    m ≤ n ∧ n ≤ width source := by
  obtain ⟨a, b, rfl, rfl, rfl⟩ := h
  simp only [width_append]
  omega

/-! ### Trivia -/

/-- The first text is blanks and comments, where the second follows it. A comment runs to a
newline, or to the end of the source. -/
inductive Trivia : List Char → List Char → Prop
  | nil {rest} : Trivia [] rest
  | blank {c gap rest} : isBlank c = true → Trivia gap rest → Trivia (c :: gap) rest
  | comment {body gap rest} : '\n' ∉ body → Trivia gap rest →
      Trivia ('/' :: '/' :: (body ++ '\n' :: gap)) rest
  | lastComment {body} : '\n' ∉ body → Trivia ('/' :: '/' :: body) []

theorem splitComment_cons {c : Char} (h : c ≠ '\n') (cs : List Char) :
    splitComment (c :: cs) = (c :: (splitComment cs).1, (splitComment cs).2) := by
  rw [splitComment, if_neg h]

/-- A comment ends at the end of its line. -/
theorem splitComment_line {body : List Char} (h : '\n' ∉ body) (cs : List Char) :
    splitComment (body ++ '\n' :: cs) =
      (body ++ '\n' :: (splitTrivia cs).1, (splitTrivia cs).2) := by
  induction body with
  | nil => rw [List.nil_append, splitComment, if_pos rfl]; rfl
  | cons c body ih =>
    rw [List.mem_cons, not_or] at h
    rw [List.cons_append, splitComment_cons (Ne.symm h.1), ih h.2]
    rfl

/-- A comment on the last line takes all that is left. -/
theorem splitComment_last {body : List Char} (h : '\n' ∉ body) :
    splitComment body = (body, []) := by
  induction body with
  | nil => rw [splitComment]
  | cons c body ih =>
    rw [List.mem_cons, not_or] at h
    rw [splitComment_cons (Ne.symm h.1), ih h.2]

mutual

/-- What is cut off is trivia. -/
theorem trivia_splitTrivia : ∀ cs : List Char, Trivia (splitTrivia cs).1 (splitTrivia cs).2
  | [] => by
    rw [splitTrivia]
    exact .nil
  | c :: cs => by
    by_cases hc : c = '/' ∧ cs.head? = some '/'
    · obtain ⟨rfl, hd⟩ := hc
      obtain ⟨ds, rfl⟩ := List.head?_eq_some_iff.mp hd
      rw [splitTrivia_comment]
      exact trivia_splitComment ds [] List.not_mem_nil
    · cases hb : isBlank c with
      | true =>
        rw [splitTrivia_blank hb]
        exact .blank hb (trivia_splitTrivia cs)
      | false =>
        rw [splitTrivia_lexeme hb fun h hd => hc ⟨h, hd⟩]
        exact .nil
termination_by cs => cs.length

/-- The same inside a comment, of which a part of the line is passed already. -/
theorem trivia_splitComment : ∀ cs body : List Char, '\n' ∉ body →
    Trivia ('/' :: '/' :: (body ++ (splitComment cs).1)) (splitComment cs).2
  | [], body, h => by
    rw [splitComment, List.append_nil]
    exact .lastComment h
  | c :: cs, body, h => by
    by_cases hc : c = '\n'
    · have hcs := trivia_splitTrivia cs
      rw [splitComment, if_pos hc, hc]
      exact .comment h hcs
    · have hbody : '\n' ∉ body ++ [c] := by
        rw [List.mem_append, List.mem_singleton, not_or]
        exact ⟨h, Ne.symm hc⟩
      have hcs := trivia_splitComment cs (body ++ [c]) hbody
      rw [splitComment_cons hc]
      rwa [List.append_assoc] at hcs
termination_by cs => cs.length

end

/-- Trivia are cut off with all trivia after them. -/
theorem splitTrivia_of_trivia {gap rest : List Char} (h : Trivia gap rest) :
    splitTrivia (gap ++ rest) = (gap ++ (splitTrivia rest).1, (splitTrivia rest).2) := by
  induction h with
  | nil => rfl
  | blank hb _ ih =>
    rw [List.cons_append, splitTrivia_blank hb, ih]
    rfl
  | @comment body gap rest hbody _ ih =>
    have hline : body ++ '\n' :: gap ++ rest = body ++ '\n' :: (gap ++ rest) := by simp
    rw [List.cons_append, List.cons_append, hline, splitTrivia_comment, splitComment_line hbody, ih]
    simp
  | lastComment hbody =>
    rw [List.append_nil, splitTrivia_comment, splitComment_last hbody, splitTrivia, List.append_nil]

/-- No trivia are left where they were cut off. -/
theorem splitTrivia_rest (cs : List Char) :
    splitTrivia (splitTrivia cs).2 = ([], (splitTrivia cs).2) := by
  have hsplit := splitTrivia_of_trivia (trivia_splitTrivia cs)
  rw [append_splitTrivia] at hsplit
  obtain ⟨hgap, hrest⟩ := Prod.ext_iff.mp hsplit
  apply Prod.ext
  · exact List.self_eq_append_right.mp hgap
  · exact hrest.symm

/-- Nothing is left exactly if there was nothing but trivia. -/
theorem splitTrivia_eq_nil_iff {cs : List Char} : (splitTrivia cs).2 = [] ↔ Trivia cs [] := by
  constructor
  · intro h
    have hcs := trivia_splitTrivia cs
    have happend := append_splitTrivia cs
    rw [h, List.append_nil] at happend
    rwa [h, happend] at hcs
  · intro h
    have hsplit := splitTrivia_of_trivia h
    rw [List.append_nil, splitTrivia] at hsplit
    rw [hsplit]

/-! ### One reading -/

/-- What a token has to be that is read at the byte `cursor` of a source. -/
structure Token.ReadAt (source : List Char) (cursor : Nat) (t : Token) : Prop where
  /-- It begins at the cursor or after it, and ends inside the source. -/
  order : cursor ≤ t.start ∧ t.start ≤ t.stop ∧ t.stop ≤ width source
  /-- Neither end is inside a character. -/
  boundaries : IsBoundary source t.start ∧ IsBoundary source t.stop
  /-- Its text is what stands between its ends. -/
  spans : Spans source t.start t.stop t.text
  /-- Only the mark for the end is empty. -/
  nonempty : t.kind ≠ .finish → t.start < t.stop
  /-- It is the mark for the end exactly if nothing but trivia comes after the cursor. -/
  finish_iff : t.kind = .finish ↔ ∃ cs, cut? source cursor = some cs ∧ Trivia cs []
  /-- The mark for the end stands at the end. -/
  finish : t.kind = .finish → t.start = width source ∧ t.stop = width source
  /-- Before it is nothing but trivia. -/
  gap : ∃ gap rest, Spans source cursor t.start gap ∧ cut? source t.start = some rest ∧
    Trivia gap rest
  /-- It is read again where it begins. -/
  again : read? source t.start = some t

theorem read?_finish {a b : List Char} (h : (splitTrivia b).2 = []) :
    read? (a ++ b) (width a) = some (Token.finish (width (a ++ b))) := by
  simp only [read?, cut?_append, Option.map_some, next?_eq, h]

theorem read?_token {a b ds : List Char} {c : Char} (h : (splitTrivia b).2 = c :: ds) :
    read? (a ++ b) (width a) =
      some ⟨(lexeme c ds).kind, (lexeme c ds).text, width a + width (splitTrivia b).1⟩ := by
  simp only [read?, cut?_append, Option.map_some, next?_eq, h]

/-- Before the mark for the end stand only trivia. -/
theorem readAt_finish {a b : List Char} (h : (splitTrivia b).2 = []) :
    (Token.finish (width (a ++ b))).ReadAt (a ++ b) (width a) := by
  have htrivia : Trivia b [] := splitTrivia_eq_nil_iff.mp h
  have hend : Spans (a ++ b) (width (a ++ b)) (width (a ++ b)) [] := ⟨a ++ b, [], by simp⟩
  have hgap : Spans (a ++ b) (width a) (width (a ++ b)) b := ⟨a, [], by simp, rfl, rfl⟩
  have hcut : cut? (a ++ b) (width (a ++ b)) = some [] := by
    have hc := cut?_append [] (a ++ b)
    rwa [List.append_nil] at hc
  have hread : read? (a ++ b) (width (a ++ b)) = some (Token.finish (width (a ++ b))) := by
    have hr := read?_finish (a := a ++ b) (b := []) (by rw [splitTrivia])
    rwa [List.append_nil] at hr
  have hkind : (Token.finish (width (a ++ b))).kind = .finish := rfl
  constructor
  case order => exact ⟨hgap.le.1, Nat.le_refl _, Nat.le_refl _⟩
  case boundaries => exact hend.isBoundary
  case spans => exact hend
  case nonempty => exact fun hk => absurd hkind hk
  case finish_iff => exact ⟨fun _ => ⟨b, cut?_append b a, htrivia⟩, fun _ => hkind⟩
  case finish => exact fun _ => ⟨rfl, rfl⟩
  case gap => exact ⟨b, [], hgap, hcut, htrivia⟩
  case again => exact hread

/-- A token stands after the trivia that were cut off. -/
theorem readAt_token {a b ds : List Char} {c : Char} (h : (splitTrivia b).2 = c :: ds) :
    (⟨(lexeme c ds).kind, (lexeme c ds).text, width a + width (splitTrivia b).1⟩ : Token).ReadAt
      (a ++ b) (width a) := by
  generalize ht : (⟨(lexeme c ds).kind, (lexeme c ds).text,
    width a + width (splitTrivia b).1⟩ : Token) = t
  have hkind : t.kind ≠ .finish := ht ▸ lexeme_kind_ne_finish c ds
  have htext : t.text = (lexeme c ds).text := ht ▸ rfl
  have hstart : t.start = width (a ++ (splitTrivia b).1) := by
    rw [← ht, width_append]
  -- the source is what was read before, the trivia, the token and the rest
  have hrest : t.text ++ (lexeme c ds).rest = c :: ds := by
    rw [htext, lexeme_text_append_rest]
  have hsource : a ++ b = a ++ (splitTrivia b).1 ++ (c :: ds) := by
    rw [List.append_assoc, ← h, append_splitTrivia]
  have hspans : Spans (a ++ b) t.start t.stop t.text := by
    refine ⟨a ++ (splitTrivia b).1, (lexeme c ds).rest, ?_, hstart.symm, ?_⟩
    · rw [hrest, hsource]
    · rw [width_append, Token.stop, hstart]
  have hgap : Spans (a ++ b) (width a) t.start (splitTrivia b).1 := by
    refine ⟨a, c :: ds, ?_, rfl, hstart.symm⟩
    rw [hsource, List.append_assoc]
  have hcut : cut? (a ++ b) t.start = some (c :: ds) := by
    rw [hsource, hstart, cut?_append]
  have hpos : t.start < t.stop := by
    have hw := width_pos (lexeme_text_ne_nil c ds)
    rw [Token.stop, htext]
    omega
  have htrivia : Trivia (splitTrivia b).1 (c :: ds) := h ▸ trivia_splitTrivia b
  have hagain : read? (a ++ b) t.start = some t := by
    have hsplit : splitTrivia (c :: ds) = ([], c :: ds) := h ▸ splitTrivia_rest b
    rw [hsource, hstart, read?_token (congrArg Prod.snd hsplit), hsplit, ← ht]
    simp
  constructor
  case order => exact ⟨hgap.le.1, hspans.le⟩
  case boundaries => exact hspans.isBoundary
  case spans => exact hspans
  case nonempty => exact fun _ => hpos
  case finish_iff =>
    constructor
    · exact fun hk => absurd hk hkind
    · rintro ⟨cs, hcs, hnil⟩
      rw [cut?_append, Option.some.injEq] at hcs
      rw [← hcs, ← splitTrivia_eq_nil_iff, h] at hnil
      cases hnil
  case finish => exact fun hk => absurd hk hkind
  case gap => exact ⟨(splitTrivia b).1, c :: ds, hgap, hcut, htrivia⟩
  case again => exact hagain

/-- At a byte between two characters a token can be read. -/
theorem readAt_of_boundary {source : List Char} {cursor : Nat} (h : IsBoundary source cursor) :
    ∃ t, read? source cursor = some t ∧ t.ReadAt source cursor := by
  obtain ⟨a, b, rfl, rfl⟩ := h
  cases hb : (splitTrivia b).2 with
  | nil => exact ⟨_, read?_finish hb, readAt_finish hb⟩
  | cons c ds => exact ⟨_, read?_token hb, readAt_token hb⟩

/-- What is read stands where it should. -/
theorem readAt_of_read? {source : List Char} {cursor : Nat} {t : Token}
    (h : read? source cursor = some t) : t.ReadAt source cursor := by
  obtain ⟨b, hb, -⟩ := Option.map_eq_some_iff.mp h
  obtain ⟨u, hu, hat⟩ := readAt_of_boundary (isBoundary_iff_cut?.mpr ⟨b, hb⟩)
  rw [h] at hu
  rwa [Option.some.inj hu]

/-! ### All readings -/

/-- The text, which stands at the byte `n`, is the tokens one after the other, with trivia before
each of them and after the last. -/
inductive Tiles : Nat → List Char → List Token → Prop
  | finish {n gap} : Trivia gap [] → Tiles n gap []
  | token {n gap rest t ts} : Trivia gap (t.text ++ rest) → t.start = n + width gap →
      t.text ≠ [] → Tiles t.stop rest ts → Tiles n (gap ++ (t.text ++ rest)) (t :: ts)

/-- There are no more tokens than bytes. -/
theorem Tiles.length_le {n : Nat} {cs : List Char} {ts : List Token} (h : Tiles n cs ts) :
    ts.length ≤ width cs := by
  induction h with
  | finish _ => exact Nat.zero_le _
  | token _ _ htext _ ih =>
    have hw := width_pos htext
    rw [List.length_cons, width_append, width_append]
    omega

/-- The tokens of a text tile it. -/
theorem tiles_tokens : ∀ (n : Nat) (cs : List Char), Tiles n cs (tokens n cs)
  | n, cs => by
    have happend := append_splitTrivia cs
    have htrivia := trivia_splitTrivia cs
    rw [tokens_eq]
    cases hs : (splitTrivia cs).2 with
    | nil =>
      have hnext : next? n cs = none := by rw [next?_eq, hs]
      rw [hnext]
      exact .finish (splitTrivia_eq_nil_iff.mp hs)
    | cons c ds =>
      have hnext : next? n cs = some (⟨(lexeme c ds).kind, (lexeme c ds).text,
          n + width (splitTrivia cs).1⟩, (lexeme c ds).rest) := by rw [next?_eq, hs]
      have hlt := length_rest_lt hnext
      have hrest := lexeme_text_append_rest c ds
      rw [hs, ← hrest] at happend htrivia
      have htiles := Tiles.token htrivia (t := ⟨(lexeme c ds).kind, (lexeme c ds).text,
        n + width (splitTrivia cs).1⟩) rfl (lexeme_text_ne_nil c ds) (tiles_tokens _ _)
      rw [hnext]
      rwa [happend] at htiles
termination_by _ cs => cs.length

/-- Reading never fails at a byte between two characters, and gives a token that stands where it
should. From the start of a source on, the readings come to the mark for its end after no more
tokens than the source has bytes, and the tokens tile the source. -/
theorem reads_tile_source (source : List Char) :
    (∀ cursor, IsBoundary source cursor →
      ∃ t, read? source cursor = some t ∧ t.ReadAt source cursor) ∧
    ∃ ts, Stream source 0 ts ∧ ts.length ≤ width source ∧ Tiles 0 source ts := by
  refine ⟨fun cursor h => readAt_of_boundary h, ?_⟩
  have htiles := tiles_tokens 0 source
  exact ⟨tokens 0 source, stream_start_iff.mpr rfl, htiles.length_le, htiles⟩

end StackScript
