/-
# The cursor of a reader

A reader is asked for expressions and programs in any order, and asked again after an answer that
was an error. Its cursor goes from the end of one token of the source to the end of the next and
never back. The reader keeps the trail of its cursor, so this is said of all places where the
cursor ever was, those inside an answer as well (`Reader.Tracked`).

One step passes the token at the cursor, or the mark for the end when no token is left
(`Reader.Along.token`, `Reader.Along.finish`). Each answer is a run of such steps, up to what was
read, or up to the token to blame, or past it. What a step keeps, an answer keeps, and so does a
run of answers.

Key definitions: `reach`, `TokenStep`, `Reader.after`, `Reader.Tracked`, `Reader.Along`.
Key theorems: `Reader.Along.pass`, `Reader.Along.crossed`, `Reader.Along.next`,
`Reader.cursor_keeps_to_stream`.
-/
import Mathlib.Data.List.Chain
import StackScript.Proofs.InvalidTokens
import StackScript.Proofs.Pointing
import StackScript.Proofs.Slots
import StackScript.Proofs.Stepping

namespace StackScript

/-! ### Passing tokens -/

/-- Where a cursor comes to that starts at the byte `n` and passes tokens one after the other. -/
def reach (n : Nat) (ts : List Token) : Nat := ts.foldl (fun _ t => t.stop) n

@[simp] theorem reach_concat (n : Nat) (ts : List Token) (t : Token) :
    reach n (ts ++ [t]) = t.stop := by
  simp [reach]

/-- A cursor at the byte `m` comes to the byte `n` by passing the token that is read there. -/
def TokenStep (source : List Char) (m n : Nat) : Prop :=
  ∃ t, read? source m = some t ∧ n = t.stop

theorem TokenStep.le {source : List Char} {m n : Nat} (h : TokenStep source m n) : m ≤ n := by
  obtain ⟨t, ht, rfl⟩ := h
  obtain ⟨hstart, hstop, -⟩ := (readAt_of_read? ht).order
  exact Nat.le_trans hstart hstop

@[simp] theorem Token.stop_finish (n : Nat) : (Token.finish n).stop = n := rfl

/-! ### Requests -/

/-- What a reader can be asked for. -/
inductive Request where
  | expression
  | program
  deriving DecidableEq, Repr

namespace Reader

variable {r : Reader} {us ts : List Token} {t : Token}

/-- The reader after its answer. -/
def next (r : Reader) : Request → Reader
  | .expression => r.expression.2
  | .program => r.program.2

/-- The error, if the answer is one. -/
def error? (r : Reader) : Request → Option SyntaxError
  | .expression => failure? r.expression.1
  | .program => failure? r.program.1.value

/-- The reader after its answers to requests, one after the other. -/
def after (r : Reader) (qs : List Request) : Reader := qs.foldl next r

/-! ### What an answer does -/

/-- An expression takes some of the tokens ahead and leaves one that does not go on with it. -/
theorem next_of_expression (hs : r.Sees ts) {e : Expr String} (h : r.expression.1 = .ok e) :
    ∃ us rest, ts = us ++ rest ∧ Parser.EndsExpression rest ∧ r.next .expression = r.pass us := by
  unfold next
  rcases expression_follows hs with ⟨a, us, rest, hts, hfinds, hread⟩ | ⟨f, us, -, -, hread⟩
  · exact ⟨us, rest, hts, Parser.expression_ends hfinds, by rw [hread]⟩
  · rw [hread] at h
    cases h

/-- A program takes all that is ahead. -/
theorem next_of_program (hs : r.Sees ts) {p : Program String} (h : r.program.1.value = .ok p) :
    r.next .program = r.pass (ts ++ [.finish (width r.source)]) := by
  unfold next
  rcases program_follows hs with ⟨ds, -, hread⟩ | ⟨ds, f, us, -, -, hread⟩
  · rw [hread]
  · rw [hread] at h
    cases h

/-- An error comes from a fault in the tokens ahead. -/
theorem next_of_error (hs : r.Sees ts) {q : Request} {e : SyntaxError} (h : r.error? q = some e) :
    ∃ (f : Fault) (us : List Token), ts = us ++ f.blamed ∧ f.KeepsInvalid ∧
      e = f.toError r.source ∧ r.next q = r.pass (us ++ f.crossed (width r.source)) := by
  cases q with
  | expression =>
    have herror : r.expression.1 = .error e := failure?_eq_some.mp h
    unfold next
    rcases expression_follows hs with ⟨a, us, rest, -, -, hread⟩ | ⟨f, us, hts, hf, hread⟩
    · rw [hread] at herror
      cases herror
    · rw [hread] at herror
      cases herror
      exact ⟨f, us, hts, Parser.expression_keeps ts f hf, rfl, by rw [hread]⟩
  | program =>
    have herror : r.program.1.value = .error e := failure?_eq_some.mp h
    unfold next
    rcases program_follows hs with ⟨ds, -, hread⟩ | ⟨ds, f, us, hts, hf, hread⟩
    · rw [hread] at herror
      cases herror
    · rw [hread] at herror
      cases herror
      exact ⟨f, us, hts, Parser.declarations_keeps ts f (by simp [hf]), rfl, by rw [hread]⟩

/-- An expression is not empty. -/
theorem left_expression_lt {e : Expr String} (h : r.expression.1 = .ok e) :
    r.expression.2.left < r.left := by
  unfold expression at h ⊢
  cases hread : r.readExpression with
  | found a after hlt => exact hlt
  | fault f =>
    rw [hread] at h
    cases h

/-! ### The trail -/

theorem places_moveTo (r : Reader) (n : Nat) : (r.moveTo n).places = r.places ++ [n] := by
  simp [places, moveTo]

theorem places_pass (r : Reader) (us : List Token) :
    (r.pass us).places = r.places ++ us.map Token.stop := by
  induction us generalizing r with
  | nil => simp [pass]
  | cons u us ih =>
    have hrest := ih (r.moveTo u.stop)
    rw [places_moveTo, List.append_assoc] at hrest
    exact hrest

theorem getLast?_places (r : Reader) : r.places.getLast? = some r.cursor := by
  simp [places]

/-- All places of the cursor up to now: it has come from the start of the source by passing
tokens. -/
structure Tracked (r : Reader) : Prop where
  first : r.places.head? = some 0
  steps : r.places.IsChain (TokenStep r.source)
  ends : ∀ n ∈ r.places,
    n = 0 ∨ ∃ t ∈ tokens 0 r.source ++ [.finish (width r.source)], n = t.stop

namespace Tracked

/-- One more token is passed. -/
theorem moveTo (h : r.Tracked) (hread : read? r.source r.cursor = some t)
    (ht : t ∈ tokens 0 r.source ++ [.finish (width r.source)]) : (r.moveTo t.stop).Tracked where
  first := by
    rw [places_moveTo, List.head?_append, h.first]
    rfl
  steps := by
    rw [places_moveTo]
    refine List.isChain_append.mpr ⟨h.steps, List.isChain_singleton _, ?_⟩
    intro m hm n hn
    obtain rfl := Option.some.inj ((getLast?_places r).symm.trans hm)
    exact ⟨t, hread, (Option.some.inj hn).symm⟩
  ends := by
    intro n hn
    rw [places_moveTo, List.mem_append, List.mem_singleton] at hn
    rcases hn with hn | rfl
    · exact h.ends n hn
    · exact .inr ⟨t, ht, rfl⟩

/-- The cursor never goes back. -/
theorem pairwise (h : r.Tracked) : r.places.Pairwise (· ≤ ·) :=
  List.isChain_iff_pairwise.mp (h.steps.imp fun _ _ => TokenStep.le)

end Tracked

/-! ### The tokens behind the cursor -/

/-- The reader has passed the tokens `us` of its source and sees the others. Where none is left it
may have passed the end of the source too. -/
structure Along (r : Reader) (us ts : List Token) : Prop where
  stream : tokens 0 r.source = us ++ ts
  sees : r.Sees ts
  cursor : r.cursor = reach 0 us ∨ r.cursor = width r.source ∧ ts = []
  tracked : r.Tracked

theorem along_start (source : List Char) : (start source).Along [] (tokens 0 source) where
  stream := rfl
  sees := sees_start source
  cursor := .inl rfl
  tracked := ⟨rfl, List.isChain_singleton _, by simp [places, start]⟩

namespace Along

theorem token (h : r.Along us (t :: ts)) : (r.moveTo t.stop).Along (us ++ [t]) ts where
  stream := by
    rw [List.append_assoc]
    exact h.stream
  sees := h.sees.next
  cursor := .inl (reach_concat 0 us t).symm
  tracked := h.tracked.moveTo h.sees.read?_cons (by simp [h.stream])

theorem finish (h : r.Along us []) :
    (r.moveTo (Token.finish (width r.source)).stop).Along us [] where
  stream := h.stream
  sees := by
    have hcut : cut? r.source (width r.source) = some [] := by
      simpa using cut?_append [] r.source
    refine (stream_iff hcut).mpr ?_
    rw [tokens_eq]
    rfl
  cursor := .inr ⟨rfl, rfl⟩
  tracked := h.tracked.moveTo h.sees.read?_nil (by simp)

/-- Tokens are passed one after the other. -/
theorem pass {vs : List Token} (h : r.Along us (vs ++ ts)) : (r.pass vs).Along (us ++ vs) ts := by
  induction vs generalizing r us with
  | nil =>
    rw [List.append_nil]
    exact h
  | cons v vs ih =>
    have hrest := ih h.token
    rw [List.append_assoc] at hrest
    exact hrest

/-- A fault leaves the cursor in front of the token to blame, at the end of the one before it, or
behind the token to blame. It is left in front of an invalid token. -/
theorem crossed {f : Fault} (h : r.Along us f.blamed) (hf : f.KeepsInvalid) {after : Reader}
    (hafter : after = r.pass (f.crossed (width r.source))) :
    (∃ vs rest, after.Along vs rest) ∧
    ∃ t rest, f.blamed ++ [.finish (width r.source)] = t :: rest ∧
      (after.cursor = reach 0 us ∨ after.cursor = t.stop) ∧
      (f.cause = .invalidToken → after.cursor = reach 0 us) := by
  have hinvalid (hc : f.cause = .invalidToken) : f.passed = false ∧ f.blamed ≠ [] := by
    obtain ⟨hp, u, hu, -⟩ := hf hc
    exact ⟨hp, fun hnone => by simp [hnone] at hu⟩
  rw [Fault.crossed] at hafter
  cases hp : f.passed with
  | false =>
    obtain rfl : after = r := by simpa [hp, Reader.pass] using hafter
    obtain ⟨t, rest, ht, -⟩ := f.exists_blamed (width after.source)
    refine ⟨⟨us, f.blamed, h⟩, t, rest, ht, ?_⟩
    rcases h.cursor with hcursor | ⟨hcursor, hnone⟩
    · exact ⟨.inl hcursor, fun _ => hcursor⟩
    · -- no token is left, and the end was passed before
      rw [hnone, List.nil_append, List.cons.injEq] at ht
      refine ⟨.inr ?_, fun hc => absurd hnone (hinvalid hc).2⟩
      rw [hcursor, ← ht.1, Token.stop_finish]
  | true =>
    have hvalid : f.cause ≠ .invalidToken := by
      intro hc
      rw [(hinvalid hc).1] at hp
      cases hp
    rw [hp, if_pos rfl] at hafter
    cases hb : f.blamed with
    | nil =>
      rw [hb] at h hafter
      subst hafter
      exact ⟨⟨us, [], h.finish⟩, _, [], rfl, .inr rfl, fun hc => absurd hc hvalid⟩
    | cons t rest =>
      rw [hb] at h hafter
      subst hafter
      exact ⟨⟨us ++ [t], rest, h.token⟩, t, _, rfl, .inr rfl, fun hc => absurd hc hvalid⟩

/-- What one answer does: it passes tokens from the cursor on. -/
theorem next (h : r.Along us ts) (q : Request) :
    ∃ passed vs rest, r.next q = r.pass passed ∧ (r.next q).Along vs rest := by
  cases he : r.error? q with
  | some e =>
    obtain ⟨f, vs, rfl, hf, -, hnext⟩ := next_of_error h.sees he
    have hbefore := h.pass
    rw [pass_append, ← source_pass r vs] at hnext
    obtain ⟨⟨ws, rest, hafter⟩, -⟩ := hbefore.crossed hf hnext
    exact ⟨_, ws, rest, hnext.trans (pass_append r vs _).symm, hafter⟩
  | none =>
    cases q with
    | expression =>
      obtain ⟨e, he⟩ := failure?_eq_none.mp he
      obtain ⟨vs, rest, rfl, -, hnext⟩ := next_of_expression h.sees he
      exact ⟨vs, _, rest, hnext, hnext ▸ h.pass⟩
    | program =>
      obtain ⟨p, hp⟩ := failure?_eq_none.mp he
      have hnext := next_of_program h.sees hp
      refine ⟨_, us ++ ts, [], hnext, ?_⟩
      have hall : (r.pass ts).Along (us ++ ts) [] := by
        rw [← List.append_nil ts] at h
        exact h.pass
      have hfinish := hall.finish
      rw [source_pass] at hfinish
      rw [hnext, pass_append]
      exact hfinish

/-- The same after any answers. -/
theorem after (h : r.Along us ts) (qs : List Request) :
    (r.after qs).source = r.source ∧ ∃ vs rest, (r.after qs).Along vs rest := by
  induction qs generalizing r us ts with
  | nil => exact ⟨rfl, us, ts, h⟩
  | cons q qs ih =>
    obtain ⟨passed, vs, rest, hpass, hnext⟩ := h.next q
    obtain ⟨hsource, hafter⟩ := ih hnext
    exact ⟨hsource.trans (by rw [hpass, source_pass]), hafter⟩

/-- After tokens that an expression ends with, the next one does not go on with it. -/
theorem read?_of_ends (h : r.Along us ts) (hends : Parser.EndsExpression ts) :
    ∃ t, read? r.source r.cursor = some t ∧ t.kind ∉ Grammar.operators.map Prod.fst ∧
      t.kind ≠ .leftParen ∧ t.kind ≠ .leftBracket ∧ t.kind ≠ .invalid := by
  cases ts with
  | nil => exact ⟨_, h.sees.read?_nil, by simp [Token.finish, Grammar.operators]⟩
  | cons t ts =>
    obtain ⟨hoperand, hop⟩ := hends
    exact ⟨t, h.sees.read?_cons, Kind.binaryOp?_eq_none_iff.mp (hop t rfl), hoperand t rfl⟩

end Along

/-! ### Any requests -/

/-- However often a reader was asked, its cursor has moved along the one stream of the source, and
an answer moves it on from there: past what was read, or up to or past the token to blame. -/
theorem cursor_keeps_to_stream {source : List Char} {ts : List Token} (hts : Lexed source 0 ts)
    (qs : List Request) {r : Reader} (hr : r = (start source).after qs) :
    -- the cursor has come from the start by passing tokens, and no answer takes a place back
    (r.places.head? = some 0 ∧ r.places.getLast? = some r.cursor ∧
      r.places.IsChain (TokenStep source) ∧ ∀ q, r.places <+: (r.next q).places) ∧
    -- it never went back and was at the start or at the end of a token at each moment
    (r.places.Pairwise (· ≤ ·) ∧ ∀ n ∈ r.places, n = 0 ∨ ∃ t ∈ ts, n = t.stop) ∧
    -- what is ahead is the end of the stream
    (∃ us vs, ts = us ++ vs ∧ Lexed source r.cursor vs) ∧
    -- after an expression the cursor has gone on, and the next token does not go on with it
    (∀ e, r.expression.1 = .ok e → r.cursor < r.expression.2.cursor ∧
      ∃ t, read? source r.expression.2.cursor = some t ∧
        t.kind ∉ Grammar.operators.map Prod.fst ∧
        t.kind ≠ .leftParen ∧ t.kind ≠ .leftBracket ∧ t.kind ≠ .invalid) ∧
    -- after a program it is at the end of the source
    (∀ p, r.program.1.value = .ok p → r.program.2.cursor = width source) ∧
    -- after an error that points at token `k` it is at the end of the one before or of this one
    (∀ q e, r.error? q = some e → ∃ k t, ts[k]? = some t ∧
      (∀ j, e.PointsAt source ts j ↔ j = k) ∧
      ((r.next q).cursor = reach 0 (ts.take k) ∨ (r.next q).cursor = t.stop) ∧
      (e.cause.message = "invalid token" → (r.next q).cursor = reach 0 (ts.take k))) := by
  obtain ⟨hsource, us, rest, h⟩ := (along_start source).after qs
  rw [← hr] at hsource h
  obtain rfl : source = r.source := hsource.symm
  have hstream := lexed_start_iff.mp hts
  refine ⟨⟨h.tracked.first, getLast?_places r, h.tracked.steps, ?_⟩, ⟨h.tracked.pairwise, ?_⟩,
    ?_, ?_, ?_, ?_⟩
  · intro q
    obtain ⟨passed, -, -, hpass, -⟩ := h.next q
    exact ⟨passed.map Token.stop, by rw [hpass, places_pass]⟩
  · intro n hn
    rw [hstream]
    exact h.tracked.ends n hn
  · refine ⟨us, _, ?_, rest, h.sees, rfl⟩
    rw [hstream, h.stream, List.append_assoc]
  · intro e he
    obtain ⟨vs, ws, rfl, hends, hnext⟩ := next_of_expression h.sees he
    have hexpression : r.expression.2 = r.pass vs := hnext
    have hlt := left_expression_lt he
    have hread := h.pass.read?_of_ends hends
    rw [hexpression] at hlt ⊢
    simp only [left, source_pass] at hlt hread
    exact ⟨by omega, hread⟩
  · intro p hp
    have hprogram : r.program.2 = _ := next_of_program h.sees hp
    rw [hprogram, pass_append]
    rfl
  · intro q e he
    obtain ⟨f, vs, rfl, hf, rfl, hnext⟩ := next_of_error h.sees he
    rw [pass_append, ← source_pass r vs] at hnext
    obtain ⟨-, t, more, hblamed, hcursor, hinvalid⟩ := h.pass.crossed hf hnext
    rw [source_pass] at hblamed
    have hsplit : tokens 0 r.source = us ++ vs ++ f.blamed := by
      rw [h.stream, List.append_assoc]
    have hts' : ts = us ++ vs ++ t :: more := by
      rw [hstream, hsplit, List.append_assoc, hblamed]
    have htake : ts.take (us ++ vs).length = us ++ vs := by
      rw [hts', List.take_left]
    refine ⟨(us ++ vs).length, t, by simp [hts'], fun j => Fault.pointsAt_iff hsplit hts, ?_⟩
    rw [htake]
    exact ⟨hcursor, fun hm => hinvalid (Cause.message_eq_invalidToken.mp hm)⟩

/-- After an expression and a request for a program that passed the parenthesis, the request for
another expression stops in front of the mark that is no token, at the end of the parenthesis. -/
theorem cursor_keeps_to_stream_before_invalid :
    (start "x ) $".toList).after [.expression, .program] = ⟨"x ) $".toList, 3, [1, 0]⟩ ∧
      (Reader.mk "x ) $".toList 3 [1, 0]).error? .expression =
        some ⟨.invalidToken, ⟨1, 5⟩⟩ ∧
      ∃ ts k t, Lexed "x ) $".toList 0 ts ∧ ts[k]? = some t ∧
        (∀ j, SyntaxError.PointsAt ⟨.invalidToken, ⟨1, 5⟩⟩ "x ) $".toList ts j ↔ j = k) ∧
        ((Reader.mk "x ) $".toList 3 [1, 0]).next .expression).cursor = reach 0 (ts.take k) := by
  have hts : Lexed "x ) $".toList 0 _ := lexed_start_iff.mpr rfl
  have hr : (start "x ) $".toList).after [.expression, .program] =
      ⟨"x ) $".toList, 3, [1, 0]⟩ := by
    decide +kernel
  have he : (Reader.mk "x ) $".toList 3 [1, 0]).error? .expression =
      some ⟨.invalidToken, ⟨1, 5⟩⟩ := by
    decide +kernel
  obtain ⟨-, -, -, -, -, herror⟩ := cursor_keeps_to_stream hts [.expression, .program] hr.symm
  obtain ⟨k, t, ht, hpoints, -, hcursor⟩ := herror _ _ he
  exact ⟨hr, he, _, k, t, hts, ht, hpoints, hcursor rfl⟩

end Reader

end StackScript
