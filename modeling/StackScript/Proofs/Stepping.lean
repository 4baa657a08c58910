/-
# Reading by a cursor and reading a list of tokens

A program is read from the list of all tokens of its source, and a reader has only the token at its
cursor. The two do the same. A reader sees the tokens that come from its cursor on (`Reader.Sees`).
What it comes to from there follows what is read from the list of these tokens
(`Reader.Follows`): the same value, with the cursor behind the tokens that are gone from the list,
or the same error, with the cursor in front of the token to blame or behind it. The reader has
passed these tokens one after the other and has moved in no other way.

The proofs go by the recursion of the list readers, with one lemma for each way of building a
reading.

Key definitions: `Reader.pass`, `Reader.Sees`, `Fault.crossed`, `Reader.Follows`.
Key theorems: `Reader.readExpression_follows`, `Reader.readStatement_follows`,
`Reader.readDeclarations_follows`, `Reader.program_start`.
-/
import StackScript.Proofs.ParserSound
import StackScript.Proofs.TokenStream
import StackScript.Source

namespace StackScript

/-- The token to blame, if it was passed: in a source of `size` bytes the mark for the end if there
is no other. -/
def Fault.crossed (f : Fault) (size : Nat) : List Token :=
  if f.passed then (f.blamed ++ [Token.finish size]).take 1 else []

namespace Reader

variable {α β : Type} {k l m n : Nat} {r : Reader} {t : Token} {ts : List Token}

/-! ### Passing tokens -/

/-- The reader behind some tokens, passed one after the other. -/
def pass (r : Reader) (us : List Token) : Reader := us.foldl (fun r t => r.moveTo t.stop) r

theorem pass_append (r : Reader) (us vs : List Token) : r.pass (us ++ vs) = (r.pass us).pass vs :=
  List.foldl_append

@[simp] theorem source_pass (r : Reader) (us : List Token) : (r.pass us).source = r.source := by
  induction us generalizing r with
  | nil => rfl
  | cons u us ih => exact ih (r.moveTo u.stop)

/-- The tokens from the cursor on. -/
def Sees (r : Reader) (ts : List Token) : Prop := Stream r.source r.cursor ts

namespace Sees

theorem read?_nil (h : r.Sees []) :
    read? r.source r.cursor = some (.finish (width r.source)) := by
  cases h with
  | finish hr hk => rw [hr, read?_eq_finish hr hk]

theorem read?_cons (h : r.Sees (t :: ts)) : read? r.source r.cursor = some t := by
  cases h with
  | token hr hk hnext => exact hr

theorem look_nil (h : r.Sees []) : r.look = .finish (width r.source) := by
  rw [look, h.read?_nil, Option.getD_some]

theorem look_cons (h : r.Sees (t :: ts)) : r.look = t := by
  rw [look, h.read?_cons, Option.getD_some]

theorem kind_ne (h : r.Sees (t :: ts)) : t.kind ≠ .finish := by
  cases h with
  | token hr hk hnext => exact hk

theorem next (h : r.Sees (t :: ts)) : (r.moveTo t.stop).Sees ts := by
  cases h with
  | token hr hk hnext => exact hnext

theorem pass {us : List Token} (h : r.Sees (us ++ ts)) : (r.pass us).Sees ts := by
  induction us generalizing r with
  | nil => exact h
  | cons u us ih => exact ih h.next

end Sees

/-! ### Readings that agree -/

/-- What a reader comes to from the tokens `ts` on follows what is read from their list. -/
inductive Follows (r : Reader) (ts : List Token) : SourceReading m α → TokenReading n α → Prop
  | found {a after rest} {h : after.left < m} {h' : rest.length < n} (us : List Token) :
      ts = us ++ rest → after = r.pass us → Follows r ts (.found a after h) (.found a rest h')
  | fault {f after} (us : List Token) : ts = us ++ f.blamed →
      after = r.pass (us ++ f.crossed (width r.source)) →
      Follows r ts (.fault (f.toError r.source, after)) (.fault f)

namespace Follows

variable {x : SourceReading m α} {y : TokenReading n α}

/-- Nothing was read. -/
theorem here {a : α} {h : r.left < m} {h' : ts.length < n} :
    Follows r ts (.found a r h : SourceReading m α) (.found a ts h') :=
  .found [] rfl rfl

/-- Tokens that were passed go before what is read behind them. -/
theorem behind {us : List Token} (h : Follows (r.pass us) ts x y) : Follows r (us ++ ts) x y := by
  cases h with
  | found vs hts hafter =>
    refine .found (us ++ vs) (by rw [hts, List.append_assoc]) ?_
    rw [hafter, pass_append]
  | fault vs hts hafter =>
    rw [source_pass] at hafter ⊢
    refine .fault (us ++ vs) (by rw [hts, List.append_assoc]) ?_
    rw [hafter, List.append_assoc, pass_append r us]

theorem cons (h : Follows (r.moveTo t.stop) ts x y) : Follows r (t :: ts) x y :=
  have h : Follows (r.pass [t]) ts x y := h
  h.behind

theorem map (h : Follows r ts x y) (f : α → β) : Follows r ts (x.map f) (y.map f) := by
  cases h with
  | found us hts hafter => exact .found us hts hafter
  | fault us hts hafter => exact .fault us hts hafter

theorem within (h : Follows r ts x y) {hk : m ≤ k} {hl : n ≤ l} :
    Follows r ts (x.within hk) (y.within hl) := by
  cases h with
  | found us hts hafter => exact .found us hts hafter
  | fault us hts hafter => exact .fault us hts hafter

/-- One reading after the other. -/
theorem bind {next : (a : α) → (r : Reader) → r.left < m → SourceReading k β}
    {next' : (a : α) → (ts : List Token) → ts.length < n → TokenReading l β}
    (h : Follows r ts x y) (hs : r.Sees ts)
    (hn : ∀ a r' h rest h', r'.Sees rest → Follows r' rest (next a r' h) (next' a rest h')) :
    Follows r ts (x.bind next) (y.bind next') := by
  cases h with
  | found us hts hafter =>
    subst hts hafter
    exact behind (hn _ _ _ _ _ hs.pass)
  | fault us hts hafter => exact .fault us hts hafter

theorem bind_fault {next : (a : α) → (r : Reader) → r.left < m → SourceReading k β} {f : Fault}
    (h : Follows r ts x (.fault f : TokenReading n α)) :
    Follows r ts (x.bind next) (.fault f : TokenReading l β) := by
  cases h with
  | fault us hts hafter => exact .fault us hts hafter

/-- A token that is to blame is passed, or it is not. -/
theorem blame (f : Fault) {vs : List Token} (h : f.blamed ++ [.finish (width r.source)] = t :: vs) :
    Follows r f.blamed
      ((r.pass (f.crossed (width r.source))).blame t f.cause : SourceReading m α)
      (.fault f : TokenReading n α) := by
  obtain ⟨u, us, hu, hstart⟩ := f.exists_blamed (width r.source)
  obtain rfl : u = t := (List.cons.inj (hu.symm.trans h)).1
  rw [Reader.blame, source_pass, hstart]
  exact .fault [] rfl rfl

end Follows

/-! ### Steps -/

theorem peek_of_look {next : (t : Token) → r.look = t → SourceReading n α} (hl : r.look = t)
    (hk : t.kind ≠ .invalid) : r.peek next = next t hl := by
  subst hl
  exact if_neg hk

/-- A look at the mark for the end. -/
theorem Follows.peek_nil {next : (t : Token) → r.look = t → SourceReading m α}
    {y : TokenReading n α} (hs : r.Sees [])
    (hnext : Follows r [] (next (.finish (width r.source)) hs.look_nil) y) :
    Follows r [] (r.peek next) y := by
  rw [peek_of_look hs.look_nil Kind.noConfusion]
  exact hnext

/-- A look at the next token, which is to blame if it is invalid. -/
theorem Follows.peek_cons {next : (t : Token) → r.look = t → SourceReading m α}
    {y : TokenReading n α} (hs : r.Sees (t :: ts))
    (hinvalid : t.kind = .invalid → y = .fault ⟨.invalidToken, t :: ts, false⟩)
    (hnext : t.kind ≠ .invalid → Follows r (t :: ts) (next t hs.look_cons) y) :
    Follows r (t :: ts) (r.peek next) y := by
  by_cases hk : t.kind = .invalid
  · rw [hinvalid hk]
    obtain rfl := hs.look_cons
    rw [peek, if_pos hk]
    exact .blame ⟨.invalidToken, r.look :: ts, false⟩ rfl
  · rw [peek_of_look hs.look_cons hk]
    exact hnext hk

theorem Follows.advance_nil
    {next : (t : Token) → (after : Reader) → r.Passes t after → SourceReading m α}
    {y : TokenReading n α} (hs : r.Sees [])
    (hnext : ∀ h, Follows r [] (next (.finish (width r.source))
      (r.moveTo (Token.finish (width r.source)).stop) h) y) :
    Follows r [] (r.advance next) y :=
  .peek_nil hs (hnext _)

theorem Follows.advance_cons
    {next : (t : Token) → (after : Reader) → r.Passes t after → SourceReading m α}
    {y : TokenReading n α} (hs : r.Sees (t :: ts))
    (hinvalid : t.kind = .invalid → y = .fault ⟨.invalidToken, t :: ts, false⟩)
    (hnext : t.kind ≠ .invalid → ∀ h, Follows r (t :: ts) (next t (r.moveTo t.stop) h) y) :
    Follows r (t :: ts) (r.advance next) y :=
  .peek_cons hs hinvalid fun hk => hnext hk _

theorem unexpected_of_invalid {cause : Cause} {passed : Bool} (hk : t.kind = .invalid) :
    Fault.unexpected cause (t :: ts) passed = ⟨.invalidToken, t :: ts, false⟩ := if_pos hk

theorem unexpected_of_valid {cause : Cause} {passed : Bool} (hk : t.kind ≠ .invalid) :
    Fault.unexpected cause (t :: ts) passed = ⟨cause, t :: ts, passed⟩ := if_neg hk

/-- Passing a token of a kind. -/
theorem expect_follows (hs : r.Sees ts) {kind : Kind} (hkind : kind ≠ .finish)
    (hvalid : kind ≠ .invalid) :
    Follows r ts (r.expect kind hkind) (StackScript.expect kind ts) := by
  cases ts with
  | nil =>
    have hk : (Token.finish (width r.source)).kind ≠ kind := hkind.symm
    refine .advance_nil hs fun h => ?_
    rw [dif_neg hk]
    exact .blame ⟨.expected kind, [], true⟩ rfl
  | cons t ts =>
    rw [StackScript.expect]
    refine .advance_cons hs ?_ ?_
    · intro hi
      rw [if_neg (hi ▸ hvalid.symm), unexpected_of_invalid hi]
    · intro hi h
      by_cases hk : t.kind = kind
      · rw [dif_pos hk, if_pos hk]
        exact .cons .here
      · rw [dif_neg hk, if_neg hk, unexpected_of_valid hi]
        exact .blame ⟨.expected kind, t :: ts, true⟩ rfl

theorem readName_follows (hs : r.Sees ts) : Follows r ts r.readName (Parser.identifier ts) :=
  (expect_follows hs _ (by decide)).map _

/-- The value of a literal behind its token. -/
theorem valueOf_follows {value : Except Cause α} {h : (r.moveTo t.stop).left < n} :
    Follows r (t :: ts) ((r.moveTo t.stop).valueOf t value h) (literal value t ts) := by
  cases value with
  | ok a => exact .cons .here
  | error cause => exact .blame ⟨cause, t :: ts, true⟩ rfl

/-! ### Expressions -/

theorem readLiteral_nil (hs : r.Sees []) : Follows r [] r.readLiteral
    (.fault ⟨.unexpectedEnd, [], true⟩ : TokenReading 0 (Expr String)) := by
  rw [readLiteral]
  exact .advance_nil hs fun h => .blame ⟨.unexpectedEnd, [], true⟩ rfl

theorem advance_bind {f : (t : Token) → (after : Reader) → r.Passes t after → SourceReading m α}
    {next : (a : α) → (r : Reader) → r.left < m → SourceReading n β} :
    (r.advance f).bind next = r.advance fun t after h => (f t after h).bind next := by
  unfold advance peek
  split
  · rfl
  · rfl

theorem operand_of_invalid (hk : t.kind = .invalid) :
    Parser.operand (t :: ts) = .fault ⟨.invalidToken, t :: ts, false⟩ := by
  rw [Parser.operand]
  simp only [hk, unexpected_of_invalid hk]

theorem expression_nil : Parser.expression [] = .fault ⟨.unexpectedEnd, [], true⟩ := by
  rw [Parser.expression, Parser.operand_nil]
  rfl

theorem expression_of_invalid (hk : t.kind = .invalid) :
    Parser.expression (t :: ts) = .fault ⟨.invalidToken, t :: ts, false⟩ := by
  rw [Parser.expression, operand_of_invalid hk]
  rfl

/-- The token that closes a list is passed. -/
theorem readExpressions_of_close {close : Kind} (hclose : close ≠ .finish) (hl : r.look = t)
    (hi : t.kind ≠ .invalid) (hk : t.kind = close) :
    (r.readExpressions close hclose).Finds [] (r.moveTo t.stop) := by
  rw [readExpressions, peek_of_look hl hi, dif_pos hk]
  exact ⟨_, rfl⟩

mutual

theorem readExpression_follows : ∀ {ts : List Token} {r : Reader}, r.Sees ts →
    Follows r ts r.readExpression (Parser.expression ts)
  | ts, r, hs => by
    rw [readExpression, Parser.expression]
    refine .bind (readOperand_follows hs) hs fun left r₁ h₁ rest hr hs₁ => ?_
    -- an operator is looked at before it is passed, so an invalid token stays where it is
    cases rest with
    | nil => exact .peek_nil hs₁ .here
    | cons t rest =>
      have hlt : rest.length < ts.length := by rw [List.length_cons] at hr; omega
      refine .peek_cons hs₁ ?_ ?_
      · intro hi
        simp [hi, Kind.binaryOp?]
      · intro hi
        split
        · next hop =>
          simp only [hop, if_neg hi]
          exact .here
        · next op hop =>
          simp only [hop]
          exact .cons ((readExpression_follows hs₁.next).map _).within
termination_by ts => 4 * ts.length + 2

theorem readOperand_follows : ∀ {ts : List Token} {r : Reader}, r.Sees ts →
    Follows r ts r.readOperand (Parser.operand ts)
  | [], r, hs => by
    rw [readOperand, Parser.operand_nil]
    exact .peek_nil hs (readLiteral_nil hs).bind_fault
  | t :: ts, r, hs => by
    rw [readOperand]
    refine .peek_cons hs operand_of_invalid fun hi => ?_
    split
    · next hk =>
      rw [Parser.operand]
      simp only [hk]
      refine .cons (.bind (readExpression_follows hs.next) hs.next fun e r₁ h₁ rest hr hs₁ => ?_)
      refine .bind (expect_follows hs₁ _ (by decide)) hs₁ fun _ r₂ h₂ rest hr hs₂ => ?_
      exact (readSuffixes_follows e hs₂).within
    · next hk =>
      rw [Parser.operand]
      simp only [hk]
      refine .cons (.bind (readOperand_follows hs.next) hs.next fun e r₁ h₁ rest hr hs₁ => ?_)
      exact (readSuffixes_follows _ hs₁).within
    · next hk =>
      rw [Parser.operand]
      simp only [hk]
      refine .cons (.bind (readOperand_follows hs.next) hs.next fun e r₁ h₁ rest hr hs₁ => ?_)
      exact (readSuffixes_follows _ hs₁).within
    · refine readLiteral_follows hs ‹_› ‹_› ‹_› fun e r₁ h₁ rest hr hs₁ => ?_
      have hle : rest.length ≤ ts.length := Nat.le_of_succ_le_succ hr
      exact (readSuffixes_follows e hs₁).within
termination_by ts => 4 * ts.length + 1

/-- A literal and the calls and indices on it, which are what is read next. -/
theorem readLiteral_follows : ∀ {t : Token} {ts : List Token} {r : Reader}, r.Sees (t :: ts) →
    t.kind ≠ .leftParen → t.kind ≠ .minus → t.kind ≠ .bang →
    ∀ {next : Expr String → (r₁ : Reader) → r₁.left < r.left → SourceReading r.left _},
    (∀ e r₁ h rest (hr : rest.length + 1 ≤ (t :: ts).length), r₁.Sees rest →
      Follows r₁ rest (next e r₁ h) ((Parser.suffixes e rest).within hr)) →
    Follows r (t :: ts) (r.readLiteral.bind next) (Parser.operand (t :: ts))
  | t, ts, r, hs, hparen, hminus, hbang, next, hnext => by
    -- the list has no reader of a literal alone, so the steps behind the literal come along
    rw [readLiteral, advance_bind]
    refine .advance_cons hs operand_of_invalid fun hi h => ?_
    rw [Parser.operand]
    split
    · next hk =>
      simp only [hk, Reading.found_bind]
      exact .cons (hnext _ _ _ _ _ hs.next)
    · next hk =>
      simp only [hk, Reading.found_bind]
      exact .cons (hnext _ _ _ _ _ hs.next)
    · next hk =>
      simp only [hk, Reading.found_bind]
      exact .cons (hnext _ _ _ _ _ hs.next)
    · next hk =>
      simp only [hk, Reading.found_bind]
      exact .cons (hnext _ _ _ _ _ hs.next)
    · next hk =>
      simp only [hk, Reading.map_bind]
      exact .bind valueOf_follows hs fun a r₁ h₁ rest hr hs₁ => hnext _ _ _ _ _ hs₁
    · next hk =>
      simp only [hk, Reading.map_bind]
      exact .bind valueOf_follows hs fun a r₁ h₁ rest hr hs₁ => hnext _ _ _ _ _ hs₁
    · next hk =>
      simp only [hk, Reading.map_bind, Reading.within_bind]
      refine .cons (.bind (readExpressions_follows _ (by decide) hs.next) hs.next
        fun es r₁ h₁ rest hr hs₁ => ?_)
      exact hnext _ _ _ _ _ hs₁
    · next hk => exact absurd hk hs.kind_ne
    · split
      all_goals first | contradiction | rw [unexpected_of_valid hi]
      exact .blame ⟨.expectedOperand, t :: ts, true⟩ rfl
termination_by _ ts => 4 * ts.length + 4

theorem readSuffixes_follows : ∀ (e : Expr String) {ts : List Token} {r : Reader}, r.Sees ts →
    Follows r ts (r.readSuffixes e) (Parser.suffixes e ts)
  | e, [], r, hs => by
    rw [readSuffixes, Parser.suffixes]
    exact .peek_nil hs .here
  | e, t :: ts, r, hs => by
    rw [readSuffixes, Parser.suffixes]
    refine .peek_cons hs (fun hi => by simp only [hi]) fun hi => ?_
    split
    · next hk =>
      simp only [hk]
      refine .cons (.bind (readExpressions_follows _ (by decide) hs.next) hs.next
        fun es r₁ h₁ rest hr hs₁ => ?_)
      exact (readSuffixes_follows _ hs₁).within
    · next hk =>
      simp only [hk]
      refine .cons (.bind (readExpression_follows hs.next) hs.next fun key r₁ h₁ rest hr hs₁ => ?_)
      refine .bind (expect_follows hs₁ _ (by decide)) hs₁ fun _ r₂ h₂ rest hr hs₂ => ?_
      exact (readSuffixes_follows _ hs₂).within
    · split
      all_goals first | contradiction | exact .here
termination_by _ ts => 4 * ts.length

theorem readExpressions_follows : ∀ {close : Kind} (hclose : close ≠ .finish),
    close ≠ .invalid → ∀ {ts : List Token} {r : Reader}, r.Sees ts →
    Follows r ts (r.readExpressions close hclose) (Parser.expressions close ts)
  | close, hclose, hvalid, [], r, hs => by
    have hk : (Token.finish (width r.source)).kind ≠ close := hclose.symm
    have hexpression := readExpression_follows hs
    rw [expression_nil] at hexpression
    rw [readExpressions, Parser.expressions_nil]
    refine .peek_nil hs ?_
    rw [dif_neg hk]
    exact hexpression.bind_fault
  | close, hclose, hvalid, t :: ts, r, hs => by
    rw [readExpressions, Parser.expressions]
    refine .peek_cons hs ?_ fun hi => ?_
    · intro hi
      rw [if_neg (hi ▸ hvalid.symm), expression_of_invalid hi]
      rfl
    by_cases hk : t.kind = close
    · rw [dif_pos hk, if_pos hk]
      exact .cons .here
    rw [dif_neg hk, if_neg hk]
    refine .bind (readExpression_follows hs) hs fun e r₁ h₁ rest hr hs₁ => ?_
    cases rest with
    | nil =>
      have hcomma : (Token.finish (width r₁.source)).kind ≠ .comma := Kind.noConfusion
      have hk : (Token.finish (width r₁.source)).kind ≠ close := hclose.symm
      refine .peek_nil hs₁ ?_
      rw [dif_neg hcomma, if_pos hk]
      exact .blame ⟨.expectedSeparator close, [], false⟩ rfl
    | cons s rest =>
      have hlt : rest.length < ts.length + 1 := by simp only [List.length_cons] at hr; omega
      refine .peek_cons hs₁ ?_ fun hi => ?_
      · intro hi
        have hcomma : s.kind ≠ .comma := hi ▸ Kind.noConfusion
        simp only [if_neg hcomma, if_neg (hi ▸ hvalid.symm), unexpected_of_invalid hi]
      by_cases hcomma : s.kind = .comma
      · simp only [dif_pos hcomma, if_pos hcomma]
        exact .cons ((readExpressions_follows hclose hvalid hs₁.next).map _).within
      simp only [dif_neg hcomma, if_neg hcomma]
      by_cases hk : s.kind = close
      · -- the reader leaves the token that closes the list to the call for the next item
        obtain ⟨h, hfound⟩ := readExpressions_of_close hclose hs₁.look_cons hi hk
        simp only [hk, ne_eq, not_true, if_false, if_true, hfound]
        exact .cons .here
      · simp only [ne_eq, hk, not_false_eq_true, if_true, if_false, unexpected_of_valid hi]
        exact .blame ⟨.expectedSeparator close, s :: rest, false⟩ rfl
termination_by _ _ _ ts => 4 * ts.length + 3

end

/-! ### Statements -/

theorem readExpressionThen_follows (hs : r.Sees ts) {close : Kind} (hclose : close ≠ .finish)
    (hvalid : close ≠ .invalid) :
    Follows r ts (r.readExpressionThen close hclose) (Parser.expressionThen close ts) :=
  .bind (readExpression_follows hs) hs fun _ _ _ _ _ hs₁ =>
    ((expect_follows hs₁ hclose hvalid).map _).within

theorem readCondition_follows (hs : r.Sees ts) :
    Follows r ts r.readCondition (Parser.condition ts) :=
  .bind (expect_follows hs _ (by decide)) hs fun _ _ _ _ _ hs₁ =>
    (readExpressionThen_follows hs₁ _ (by decide)).within

theorem readReturned_follows (hs : r.Sees ts) :
    Follows r ts r.readReturned (Parser.returned ts) := by
  cases ts with
  | nil =>
    have hexpression := readExpression_follows hs
    rw [expression_nil] at hexpression
    exact .peek_nil hs hexpression.bind_fault
  | cons t ts =>
    rw [Parser.returned]
    refine .peek_cons hs ?_ fun hi => ?_
    · intro hi
      have hk : t.kind ≠ .semicolon := hi ▸ Kind.noConfusion
      rw [if_neg hk, Parser.expressionThen, expression_of_invalid hi]
      rfl
    by_cases hk : t.kind = .semicolon
    · have hexpect : Follows r (t :: ts) (r.expect .semicolon (by decide)) _ :=
        expect_follows hs _ (by decide)
      rw [StackScript.expect, if_pos hk] at hexpect
      rw [if_pos hk, if_pos hk]
      exact hexpect.map _
    · rw [if_neg hk, if_neg hk]
      exact readExpressionThen_follows hs _ (by decide)

theorem readBinding_follows (hs : r.Sees ts) : Follows r ts r.readBinding (Parser.binding ts) :=
  .bind (readName_follows hs) hs fun _ _ _ _ _ hs₁ =>
    .bind (expect_follows hs₁ _ (by decide)) hs₁ fun _ _ _ _ _ hs₂ =>
      ((readExpressionThen_follows hs₂ _ (by decide)).map _).within

theorem readIndices_follows : ∀ {ts : List Token} {r : Reader}, r.Sees ts →
    Follows r ts r.readIndices (Parser.indices ts)
  | [], r, hs => by
    rw [readIndices, Parser.indices]
    exact .advance_nil hs fun h => .blame ⟨.expectedAssignment, [], true⟩ rfl
  | t :: ts, r, hs => by
    rw [readIndices, Parser.indices]
    refine .advance_cons hs ?_ fun hi h => ?_
    · intro hi
      simp only [hi, unexpected_of_invalid hi]
    split
    · next hk =>
      simp only [hk]
      refine .cons (.bind (readExpressionThen_follows hs.next _ (by decide)) hs.next
        fun index r₁ h₁ rest hr hs₁ => ?_)
      have hlt : rest.length < ts.length + 1 := by omega
      exact ((readIndices_follows hs₁).map _).within
    · next hk =>
      simp only [hk]
      exact .cons .here
    · split
      all_goals first | contradiction | rw [unexpected_of_valid hi]
      exact .blame ⟨.expectedAssignment, t :: ts, true⟩ rfl
termination_by ts => ts.length

theorem readAssignment_follows (hs : r.Sees ts) :
    Follows r ts r.readAssignment (Parser.assignment ts) :=
  .bind (readName_follows hs) hs fun _ _ _ _ _ hs₁ =>
    .bind (readIndices_follows hs₁) hs₁ fun _ _ _ _ _ hs₂ =>
      ((readExpressionThen_follows hs₂ _ (by decide)).map _).within

theorem statement_of_invalid (hk : t.kind = .invalid) :
    Parser.statement (t :: ts) = .fault ⟨.invalidToken, t :: ts, false⟩ := by
  rw [Parser.statement]
  simp only [hk, unexpected_of_invalid hk]

theorem block_of_invalid (hk : t.kind = .invalid) :
    Parser.block (t :: ts) = .fault ⟨.invalidToken, t :: ts, false⟩ := by
  have hbrace : t.kind ≠ .leftBrace := hk ▸ Kind.noConfusion
  rw [Parser.block, StackScript.expect, if_neg hbrace, unexpected_of_invalid hk]
  rfl

/-- Without an `else` there are no more arms. -/
theorem readArms_done (hs : r.Sees (t :: ts)) (hk : t.kind ≠ .elseWord) :
    Follows r (t :: ts) r.readArms (Parser.arms (t :: ts)) := by
  rw [readArms, Parser.arms.eq_def]
  refine .peek_cons hs (fun hi => by simp only [hi]) fun hi => ?_
  rw [dif_neg hk]
  dsimp only
  split
  all_goals first | contradiction | exact .here

mutual

theorem readBlock_follows : ∀ {ts : List Token} {r : Reader}, r.Sees ts →
    Follows r ts r.readBlock (Parser.block ts)
  | ts, r, hs => by
    rw [readBlock, Parser.block]
    refine .bind (expect_follows hs _ (by decide)) hs fun _ r₁ h₁ rest hr hs₁ => ?_
    exact (readStatements_follows hs₁).within
termination_by ts => 2 * ts.length

theorem readStatements_follows : ∀ {ts : List Token} {r : Reader}, r.Sees ts →
    Follows r ts r.readStatements (Parser.statements ts)
  | [], r, hs => by
    rw [readStatements, Parser.statements]
    exact .peek_nil hs (.blame ⟨.expected .rightBrace, [], false⟩ rfl)
  | t :: ts, r, hs => by
    rw [readStatements, Parser.statements]
    refine .peek_cons hs ?_ fun hi => ?_
    · intro hi
      have hbrace : t.kind ≠ .rightBrace := hi ▸ Kind.noConfusion
      rw [if_neg hbrace, statement_of_invalid hi]
      rfl
    split
    · next hk =>
      rw [if_pos hk]
      exact .cons .here
    · next hk => exact absurd hk hs.kind_ne
    · next hbrace _ =>
      rw [if_neg hbrace]
      refine .bind (readStatement_follows hs) hs fun s r₁ h₁ rest hr hs₁ => ?_
      have hle : rest.length ≤ ts.length := Nat.le_of_lt_succ hr
      exact ((readStatements_follows hs₁).map _).within
termination_by ts => 2 * ts.length + 1

theorem readStatement_follows : ∀ {ts : List Token} {r : Reader}, r.Sees ts →
    Follows r ts r.readStatement (Parser.statement ts)
  | [], r, hs => by
    rw [readStatement, Parser.statement]
    exact .advance_nil hs fun h => .blame ⟨.expectedStatement, [], true⟩ rfl
  | t :: ts, r, hs => by
    rw [readStatement]
    refine .advance_cons hs statement_of_invalid fun hi h => ?_
    rw [Parser.statement]
    split
    · next hk =>
      simp only [hk]
      exact .cons ((readReturned_follows hs.next).map _).within
    · next hk =>
      simp only [hk]
      exact .cons ((readExpressionThen_follows hs.next _ (by decide)).map _).within
    · next hk =>
      simp only [hk]
      exact .cons (readBinding_follows hs.next).within
    · next hk =>
      simp only [hk]
      refine .cons (.bind (readCondition_follows hs.next) hs.next fun c r₁ h₁ rest hr hs₁ => ?_)
      exact ((readBlock_follows hs₁).map _).within
    · next hk =>
      simp only [hk]
      refine .cons (.bind (readCondition_follows hs.next) hs.next fun c r₁ h₁ rest hr hs₁ => ?_)
      refine .bind (readBlock_follows hs₁) hs₁ fun body r₂ h₂ rest hr hs₂ => ?_
      exact ((readArms_follows hs₂).map _).within
    · next hk =>
      simp only [hk]
      exact .cons (readAssignment_follows hs.next).within
    · split
      all_goals first | contradiction | rw [unexpected_of_valid hi]
      exact .blame ⟨.expectedStatement, t :: ts, true⟩ rfl
termination_by ts => 2 * ts.length

theorem readArms_follows : ∀ {ts : List Token} {r : Reader}, r.Sees ts →
    Follows r ts r.readArms (Parser.arms ts)
  | [], r, hs => by
    rw [readArms, Parser.arms]
    exact .peek_nil hs .here
  | [t], r, hs => by
    by_cases hk : t.kind = .elseWord
    · rw [readArms, Parser.arms]
      refine .peek_cons hs (fun hi => by simp only [hi]) fun hi => ?_
      rw [dif_pos hk]
      simp only [hk]
      refine .advance_cons hs (fun hi' => absurd hi' hi) fun _ h => .cons ?_
      exact .peek_nil hs.next (.blame ⟨.expectedElse, [], false⟩ rfl)
    · exact readArms_done hs hk
  | t :: u :: ts, r, hs => by
    by_cases hk : t.kind = .elseWord
    · rw [readArms, Parser.arms]
      refine .peek_cons hs (fun hi => by simp only [hi]) fun hi => ?_
      rw [dif_pos hk]
      simp only [hk]
      refine .advance_cons hs (fun hi' => absurd hi' hi) fun _ h => .cons ?_
      have hs₁ := hs.next
      refine .peek_cons hs₁ ?_ fun hi => ?_
      · intro hi
        have hif : u.kind ≠ .ifWord := hi ▸ Kind.noConfusion
        simp only [if_neg hif, block_of_invalid hi]
        rfl
      split
      · next hif =>
        simp only [if_pos hif]
        refine .cons (.bind (readCondition_follows hs₁.next) hs₁.next
          fun c r₂ h₂ rest hr hs₂ => ?_)
        refine .bind (readBlock_follows hs₂) hs₂ fun body r₃ h₃ rest hr hs₃ => ?_
        exact ((readArms_follows hs₃).map _).within
      · next hfinish => exact absurd hfinish hs₁.kind_ne
      · next hif _ =>
        simp only [if_neg hif]
        exact ((readBlock_follows hs₁).map _).within
    · exact readArms_done hs hk
termination_by ts => 2 * ts.length

end

/-! ### Declarations -/

theorem readMoreParameters_follows : ∀ {ts : List Token} {r : Reader}, r.Sees ts →
    Follows r ts r.readMoreParameters (Parser.moreParameters ts)
  | [], r, hs => by
    rw [readMoreParameters, Parser.moreParameters]
    exact .advance_nil hs fun h => .blame ⟨.expectedParameterEnd, [], true⟩ rfl
  | t :: ts, r, hs => by
    rw [readMoreParameters, Parser.moreParameters]
    refine .advance_cons hs ?_ fun hi h => ?_
    · intro hi
      simp only [hi, unexpected_of_invalid hi]
    split
    · next hk =>
      simp only [hk]
      exact .cons .here
    · next hk =>
      simp only [hk]
      refine .cons (.bind (readName_follows hs.next) hs.next fun name r₁ h₁ rest hr hs₁ => ?_)
      have hlt : rest.length < ts.length + 1 := by omega
      exact ((readMoreParameters_follows hs₁).map _).within
    · split
      all_goals first | contradiction | rw [unexpected_of_valid hi]
      exact .blame ⟨.expectedParameterEnd, t :: ts, true⟩ rfl
termination_by ts => ts.length

theorem readParameters_follows (hs : r.Sees ts) :
    Follows r ts r.readParameters (Parser.parameters ts) := by
  cases ts with
  | nil => exact .advance_nil hs fun h => .blame ⟨.expectedParameter, [], true⟩ rfl
  | cons t ts =>
    rw [Parser.parameters]
    refine .advance_cons hs ?_ fun hi h => ?_
    · intro hi
      simp only [hi, unexpected_of_invalid hi]
    split
    · next hk =>
      simp only [hk]
      exact .cons .here
    · next hk =>
      simp only [hk]
      exact .cons ((readMoreParameters_follows hs.next).map _).within
    · split
      all_goals first | contradiction | rw [unexpected_of_valid hi]
      exact .blame ⟨.expectedParameter, t :: ts, true⟩ rfl

theorem readFunction_follows (hs : r.Sees ts) : Follows r ts r.readFunction (Parser.function ts) :=
  .bind (readName_follows hs) hs fun _ _ _ _ _ hs₁ =>
    .bind (expect_follows hs₁ _ (by decide)) hs₁ fun _ _ _ _ _ hs₂ =>
      .bind (readParameters_follows hs₂) hs₂ fun _ _ _ _ _ hs₃ =>
        ((readBlock_follows hs₃).map _).within

theorem readImport_follows (hs : r.Sees ts) : Follows r ts r.readImport (Parser.load ts) := by
  cases ts with
  | nil => exact (expect_follows hs _ (by decide)).bind_fault
  | cons t ts =>
    rw [readImport, Parser.load, Reader.expect, advance_bind, StackScript.expect]
    refine .advance_cons hs ?_ fun hi h => ?_
    · intro hi
      have hk : t.kind ≠ .string := hi ▸ Kind.noConfusion
      rw [if_neg hk, unexpected_of_invalid hi]
      rfl
    by_cases hk : t.kind = .string
    · simp only [dif_pos hk, if_pos hk, Reading.found_bind]
      exact .bind valueOf_follows hs fun _ _ _ _ _ hs₁ =>
        ((expect_follows hs₁ _ (by decide)).map _).within
    · rw [dif_neg hk, if_neg hk, unexpected_of_valid hi]
      exact .blame ⟨.expected .string, t :: ts, true⟩ rfl

theorem readGlobal_follows (hs : r.Sees ts) : Follows r ts r.readGlobal (Parser.global ts) :=
  .bind (readName_follows hs) hs fun _ _ _ _ _ hs₁ =>
    ((expect_follows hs₁ _ (by decide)).map _).within

theorem readDeclaration_follows (hs : r.Sees ts) :
    Follows r ts r.readDeclaration (Parser.declaration ts) := by
  cases ts with
  | nil => exact .advance_nil hs fun h => .blame ⟨.expectedDeclaration, [], true⟩ rfl
  | cons t ts =>
    rw [Parser.declaration]
    refine .advance_cons hs ?_ fun hi h => ?_
    · intro hi
      simp only [hi, unexpected_of_invalid hi]
    split
    · next hk =>
      simp only [hk]
      exact .cons (readImport_follows hs.next).within
    · next hk =>
      simp only [hk]
      exact .cons (readGlobal_follows hs.next).within
    · next hk =>
      simp only [hk]
      exact .cons ((readFunction_follows hs.next).map _).within
    · split
      all_goals first | contradiction | rw [unexpected_of_valid hi]
      exact .blame ⟨.expectedDeclaration, t :: ts, true⟩ rfl

/-- All declarations are read and the end of the source is passed, or the reader stops where the
list readers do. -/
theorem readDeclarations_follows : ∀ {ts : List Token} {r : Reader}, r.Sees ts →
    (∃ ds, Parser.declarations ts = (ds, none) ∧
      r.readDeclarations = (ds, none, r.pass (ts ++ [.finish (width r.source)]))) ∨
    ∃ ds f us, ts = us ++ f.blamed ∧ Parser.declarations ts = (ds, some f) ∧
      r.readDeclarations =
        (ds, some (f.toError r.source), r.pass (us ++ f.crossed (width r.source)))
  | [], r, hs => by
    have hk : r.look.kind = .finish := by
      rw [hs.look_nil]
      rfl
    refine .inl ⟨[], by rw [Parser.declarations], ?_⟩
    rw [readDeclarations, if_pos hk, hs.look_nil]
    rfl
  | t :: ts, r, hs => by
    have hk : r.look.kind ≠ .finish := by
      rw [hs.look_cons]
      exact hs.kind_ne
    have hfirst := readDeclaration_follows hs
    rw [readDeclarations, if_neg hk, Parser.declarations]
    generalize r.readDeclaration = x at hfirst ⊢
    generalize Parser.declaration (t :: ts) = y at hfirst ⊢
    cases hfirst with
    | @fault f after us hts hafter => exact .inr ⟨[], f, us, hts, rfl, by rw [hafter]⟩
    | @found d after rest h h' us hts hafter =>
      have hlt : rest.length < ts.length + 1 := h'
      have hs₁ : after.Sees rest := by
        rw [hafter]
        exact (hts ▸ hs).pass
      have hsource : after.source = r.source := by rw [hafter, source_pass]
      rcases readDeclarations_follows hs₁ with ⟨ds, hds, hread⟩ | ⟨ds, f, vs, hvs, hds, hread⟩
      · refine .inl ⟨d :: ds, by simp only [hds], ?_⟩
        simp only [hread, hsource]
        rw [hafter, ← pass_append, hts, List.append_assoc]
      · refine .inr ⟨d :: ds, f, us ++ vs, ?_, by simp only [hds], ?_⟩
        · rw [hts, hvs, List.append_assoc]
        simp only [hread, hsource]
        rw [hafter, ← pass_append, List.append_assoc]
termination_by ts => ts.length

/-! ### Requests -/

theorem sees_start (source : List Char) : (start source).Sees (tokens 0 source) :=
  stream_start_iff.mpr rfl

/-- An expression is found and its tokens are passed, or the reader stops where the list readers
do. -/
theorem expression_follows (hs : r.Sees ts) :
    (∃ e us rest, ts = us ++ rest ∧ (Parser.expression ts).Finds e rest ∧
      r.expression = (.ok e, r.pass us)) ∨
    ∃ f us, ts = us ++ f.blamed ∧ Parser.expression ts = .fault f ∧
      r.expression =
        (.error (f.toError r.source), r.pass (us ++ f.crossed (width r.source))) := by
  have hread := readExpression_follows hs
  unfold expression
  generalize r.readExpression = x at hread ⊢
  generalize Parser.expression ts = y at hread ⊢
  cases hread with
  | @found e after rest h h' us hts hafter =>
    exact .inl ⟨e, us, rest, hts, ⟨h', rfl⟩, by rw [← hafter]⟩
  | @fault f after us hts hafter => exact .inr ⟨f, us, hts, rfl, by rw [hafter]⟩

theorem program_follows (hs : r.Sees ts) :
    (∃ ds, Parser.declarations ts = (ds, none) ∧
      r.program = (Program.ofRead ds none, r.pass (ts ++ [.finish (width r.source)]))) ∨
    ∃ ds f us, ts = us ++ f.blamed ∧ Parser.declarations ts = (ds, some f) ∧
      r.program = (Program.ofRead ds (some (f.toError r.source)),
        r.pass (us ++ f.crossed (width r.source))) := by
  unfold program
  rcases readDeclarations_follows hs with ⟨ds, hds, hread⟩ | ⟨ds, f, us, hts, hds, hread⟩
  · exact .inl ⟨ds, hds, by rw [hread]⟩
  · exact .inr ⟨ds, f, us, hts, hds, by rw [hread]⟩

/-- A reader at the start finds the program of the source, or its error. -/
theorem program_start (source : String) : (start source.toList).program.1 = parse source := by
  unfold parse
  rcases program_follows (sees_start source.toList) with
    ⟨ds, hds, hread⟩ | ⟨ds, f, us, -, hds, hread⟩
  · rw [hread, hds]
    rfl
  · rw [hread, hds]
    rfl

end Reader
end StackScript
