/-
# Every phrase is found

If tokens are a phrase of the grammar, the reader for that phrase finds its tree in them and
leaves what follows. What follows must not be able to go on with the phrase: after an expression
no operator, call or index, and after an `if` without an `else` no `else`. The grammar never puts
such a symbol after a phrase, because of how phrases begin.

The proofs go by the derivation. A chain of calls and indices is read from its atom on, so for a
chain the statement is that reading an operand comes down to reading what follows the chain with
the tree of the chain at hand.

Key theorems: `expression_complete`, `statement_complete`, `declarations_complete`.
-/
import StackScript.Proofs.ParserSound

namespace StackScript

/-- Tokens whose symbols begin with one of a known kind. -/
theorem map_symbol_eq_cons {ts : List Token} {k : Kind} {a : List Char} {w : List Symbol} :
    ts.map Token.symbol = ⟨k, a⟩ :: w ↔
      ∃ t us, ts = t :: us ∧ t.kind = k ∧ t.text = a ∧ us.map Token.symbol = w := by
  simp [List.map_eq_cons_iff, Token.symbol, and_assoc]

/-- Tokens whose symbols end with one of a known kind. -/
theorem map_symbol_eq_concat {ts : List Token} {k : Kind} {a : List Char} {w : List Symbol}
    (h : ts.map Token.symbol = w ++ [⟨k, a⟩]) :
    ∃ us c, ts = us ++ [c] ∧ us.map Token.symbol = w ∧ c.kind = k := by
  obtain ⟨us, cs, rfl, hu, hc⟩ := List.map_eq_append_iff.mp h
  obtain ⟨c, cs, rfl, hk, -, hn⟩ := map_symbol_eq_cons.mp hc
  obtain rfl := List.map_eq_nil_iff.mp hn
  exact ⟨us, c, rfl, hu, hk⟩

/-- Tokens whose symbols have one of a known kind between two parts. -/
theorem map_symbol_eq_append_cons {ts : List Token} {k : Kind} {a : List Char}
    {v w : List Symbol} (h : ts.map Token.symbol = v ++ ⟨k, a⟩ :: w) :
    ∃ us c vs, ts = us ++ c :: vs ∧ us.map Token.symbol = v ∧ c.kind = k ∧
      vs.map Token.symbol = w := by
  obtain ⟨us, cs, rfl, hu, hc⟩ := List.map_eq_append_iff.mp h
  obtain ⟨c, vs, rfl, hk, -, hv⟩ := map_symbol_eq_cons.mp hc
  exact ⟨us, c, vs, rfl, hu, hk, hv⟩

theorem exists_of_begins {kinds : List Kind} {ts : List Token}
    (h : Grammar.Begins kinds (ts.map Token.symbol)) : ∃ t us, ts = t :: us ∧ t.kind ∈ kinds := by
  obtain ⟨s, w, hw, hs⟩ := h
  obtain ⟨t, us, rfl, rfl, -⟩ := List.map_eq_cons_iff.mp hw
  exact ⟨t, us, rfl, hs⟩

/-- The chain has no `else` yet, so one could follow. -/
def Arms.isOpen {ν : Type} : Arms ν → Bool
  | .done => true
  | .otherwise _ => false
  | .arm _ _ rest => rest.isOpen

/-- The statement is an `if` that an `else` could go on with. -/
def Stmt.isOpen {ν : Type} : Stmt ν → Bool
  | .choose arms => arms.isOpen
  | _ => false

namespace Parser

open Reading Grammar

/-- Nothing that goes on with an expression begins here. -/
def EndsExpression (ts : List Token) : Prop :=
  EndsOperand ts ∧ ∀ t ∈ ts.head?, t.kind.binaryOp? = none

theorem endsOperand_cons {t : Token} {ts : List Token} : EndsOperand (t :: ts) ↔
    t.kind ≠ .leftParen ∧ t.kind ≠ .leftBracket ∧ t.kind ≠ .invalid := by
  simp [EndsOperand]

/-- An operator ends the operand before it. -/
theorem endsOperand_of_binaryOp {t : Token} {op : BinaryOp} (h : t.kind.binaryOp? = some op)
    (ts : List Token) : EndsOperand (t :: ts) := by
  rw [endsOperand_cons]
  refine ⟨fun hk => ?_, fun hk => ?_, fun hk => ?_⟩
  all_goals simp [hk, Kind.binaryOp?] at h

/-- The tokens that may follow an expression in a program. -/
def closers : List Kind := [.rightParen, .rightBracket, .comma, .semicolon]

theorem endsExpression_of_closer {t : Token} (h : t.kind ∈ closers) (ts : List Token) :
    EndsExpression (t :: ts) := by
  simp only [closers, List.mem_cons, List.not_mem_nil, or_false] at h
  obtain h | h | h | h := h <;> simp [EndsExpression, EndsOperand, h, Kind.binaryOp?]

theorem closers_of_close {close : Kind} (h : close ∈ [.rightParen, .rightBracket]) :
    close ∈ closers := by
  revert close
  decide

/-- What ends a list is no comma, and begins no expression. -/
theorem ne_of_close {close : Kind} (h : close ∈ [.rightParen, .rightBracket]) :
    close ≠ .comma ∧ ∀ k ∈ operandKinds, k ≠ close := by
  revert close
  decide

/-! ### Expressions -/

mutual

theorem expression_complete : ∀ {w : List Symbol} {e : Expr String}, Expression w e →
    ∀ {us rest : List Token}, us.map Token.symbol = w → EndsExpression rest →
    (expression (us ++ rest)).Finds e rest
  | _, _, .operand h, us, rest, hu, hr => by
    have hf := operand_complete h hu hr.1
    rw [expression, bind_finds]
    refine ⟨_, rest, hf.size_lt, hf, ?_⟩
    cases rest with
    | nil => simp
    | cons t rest =>
      have ht := hr.2 t rfl
      have hi := (endsOperand_cons.mp hr.1).2.2
      simp [ht, hi]
  | _, _, .binary h hop h', us, rest, hu, hr => by
    obtain ⟨vs, ws, rfl, hv, hw⟩ := List.map_eq_append_iff.mp hu
    obtain ⟨t, ts, rfl, rfl, -, ht⟩ := map_symbol_eq_cons.mp hw
    rw [← Kind.binaryOp?_eq_some_iff] at hop
    have hf := operand_complete h hv (endsOperand_of_binaryOp hop (ts ++ rest))
    have hf' := expression_complete h' ht hr
    rw [List.append_assoc, List.cons_append, expression, bind_finds]
    refine ⟨_, _, hf.size_lt, hf, ?_⟩
    simp only [hop, within_finds, map_finds]
    exact ⟨_, hf', rfl⟩

theorem operand_complete : ∀ {w : List Symbol} {e : Expr String}, Operand w e →
    ∀ {us rest : List Token}, us.map Token.symbol = w → EndsOperand rest →
    (operand (us ++ rest)).Finds e rest
  | _, _, .negate h, us, rest, hu, hr => by
    obtain ⟨t, ts, rfl, hk, -, ht⟩ := map_symbol_eq_cons.mp hu
    have hf := operand_complete h ht hr
    rw [List.cons_append, operand]
    simp only [hk, bind_finds, within_finds]
    exact ⟨_, rest, hf.size_lt, hf, suffixes_of_ends hr⟩
  | _, _, .not h, us, rest, hu, hr => by
    obtain ⟨t, ts, rfl, hk, -, ht⟩ := map_symbol_eq_cons.mp hu
    have hf := operand_complete h ht hr
    rw [List.cons_append, operand]
    simp only [hk, bind_finds, within_finds]
    exact ⟨_, rest, hf.size_lt, hf, suffixes_of_ends hr⟩
  | _, _, .chain h, us, rest, hu, hr => chain_complete h hu (suffixes_of_ends hr)

theorem chain_complete : ∀ {w : List Symbol} {e : Expr String}, Chain w e →
    ∀ {us mid rest : List Token} {e' : Expr String}, us.map Token.symbol = w →
    (suffixes e mid).Finds e' rest → (operand (us ++ mid)).Finds e' rest
  | _, _, .atom h, us, mid, rest, e', hu, hs => atom_complete h hu hs
  | _, _, .call h h', us, mid, rest, e', hu, hs => by
    obtain ⟨us, c, rfl, h₁, hc⟩ := map_symbol_eq_concat hu
    obtain ⟨us, o, vs, rfl, hv, ho, hw⟩ := map_symbol_eq_append_cons h₁
    have hf := items_complete h' mid hw (by decide) hc
    rw [show us ++ o :: vs ++ [c] ++ mid = us ++ o :: (vs ++ c :: mid) by simp]
    refine chain_complete h hv ?_
    rw [suffixes]
    simp only [ho, bind_finds, within_finds]
    exact ⟨_, mid, hf.size_lt, hf, hs⟩
  | _, _, .index h h', us, mid, rest, e', hu, hs => by
    obtain ⟨us, c, rfl, h₁, hc⟩ := map_symbol_eq_concat hu
    obtain ⟨us, o, vs, rfl, hv, ho, hw⟩ := map_symbol_eq_append_cons h₁
    have hcl : c.kind ∈ closers := by simp [hc, closers]
    have hf := expression_complete h' hw (endsExpression_of_closer hcl mid)
    rw [show us ++ o :: vs ++ [c] ++ mid = us ++ o :: (vs ++ c :: mid) by simp]
    refine chain_complete h hv ?_
    rw [suffixes]
    simp only [ho, bind_finds, within_finds, expect_finds]
    exact ⟨_, _, hf.size_lt, hf, c, mid, by simp, ⟨rfl, hc⟩, hs⟩

theorem atom_complete : ∀ {w : List Symbol} {e : Expr String}, Atom w e →
    ∀ {us mid rest : List Token} {e' : Expr String}, us.map Token.symbol = w →
    (suffixes e mid).Finds e' rest → (operand (us ++ mid)).Finds e' rest
  | _, _, .true, us, mid, rest, e', hu, hs => by
    obtain ⟨t, ts, rfl, hk, -, hn⟩ := map_symbol_eq_cons.mp hu
    obtain rfl := List.map_eq_nil_iff.mp hn
    rw [List.cons_append, List.nil_append, operand]
    simpa only [hk, within_finds] using hs
  | _, _, .false, us, mid, rest, e', hu, hs => by
    obtain ⟨t, ts, rfl, hk, -, hn⟩ := map_symbol_eq_cons.mp hu
    obtain rfl := List.map_eq_nil_iff.mp hn
    rw [List.cons_append, List.nil_append, operand]
    simpa only [hk, within_finds] using hs
  | _, _, .null, us, mid, rest, e', hu, hs => by
    obtain ⟨t, ts, rfl, hk, -, hn⟩ := map_symbol_eq_cons.mp hu
    obtain rfl := List.map_eq_nil_iff.mp hn
    rw [List.cons_append, List.nil_append, operand]
    simpa only [hk, within_finds] using hs
  | _, _, .name, us, mid, rest, e', hu, hs => by
    obtain ⟨t, ts, rfl, hk, rfl, hn⟩ := map_symbol_eq_cons.mp hu
    obtain rfl := List.map_eq_nil_iff.mp hn
    rw [List.cons_append, List.nil_append, operand]
    simpa only [hk, within_finds, Token.name] using hs
  | _, _, .integer hd hle hi, us, mid, rest, e', hu, hs => by
    obtain ⟨t, ts, rfl, hk, rfl, hn⟩ := map_symbol_eq_cons.mp hu
    obtain rfl := List.map_eq_nil_iff.mp hn
    rw [List.cons_append, List.nil_append, operand]
    simp only [hk, bind_finds, within_finds, literal_finds]
    exact ⟨_, mid, by simp, ⟨Literal.integer_eq_ok_iff.mpr ⟨_, hd, hle, hi⟩, rfl⟩, hs⟩
  | _, _, .string hd, us, mid, rest, e', hu, hs => by
    obtain ⟨t, ts, rfl, hk, rfl, hn⟩ := map_symbol_eq_cons.mp hu
    obtain rfl := List.map_eq_nil_iff.mp hn
    rw [List.cons_append, List.nil_append, operand]
    simp only [hk, bind_finds, within_finds, literal_finds]
    exact ⟨_, mid, by simp, ⟨Literal.string_eq_ok_iff_body.mpr hd, rfl⟩, hs⟩
  | _, _, .list h, us, mid, rest, e', hu, hs => by
    obtain ⟨us, c, rfl, h₁, hc⟩ := map_symbol_eq_concat hu
    obtain ⟨o, us, rfl, ho, -, hv⟩ := map_symbol_eq_cons.mp h₁
    have hf := items_complete h mid hv (by decide) hc
    rw [show o :: us ++ [c] ++ mid = o :: (us ++ c :: mid) by simp, operand]
    simp only [ho, bind_finds, within_finds]
    exact ⟨_, mid, hf.size_lt, hf, hs⟩
  | _, _, .parens h, us, mid, rest, e', hu, hs => by
    obtain ⟨us, c, rfl, h₁, hc⟩ := map_symbol_eq_concat hu
    obtain ⟨o, us, rfl, ho, -, hv⟩ := map_symbol_eq_cons.mp h₁
    have hcl : c.kind ∈ closers := by simp [hc, closers]
    have hf := expression_complete h hv (endsExpression_of_closer hcl mid)
    rw [show o :: us ++ [c] ++ mid = o :: (us ++ c :: mid) by simp, operand]
    simp only [ho, bind_finds, within_finds, expect_finds]
    exact ⟨_, _, hf.size_lt, hf, c, mid, by simp, ⟨rfl, hc⟩, hs⟩

theorem items_complete : ∀ {w : List Symbol} {es : List (Expr String)}, Items w es →
    ∀ {us : List Token} (rest : List Token) {close : Kind} {c : Token},
    us.map Token.symbol = w → close ∈ [.rightParen, .rightBracket] → c.kind = close →
    (expressions close (us ++ c :: rest)).Finds es rest
  | _, _, .nil, us, rest, close, c, hu, _, hc => by
    obtain rfl := List.map_eq_nil_iff.mp hu
    rw [List.nil_append, expressions, if_pos hc]
    simp
  | _, _, .last h, us, rest, close, c, hu, hcl, hc => by
    have hf := expression_complete h hu (endsExpression_of_closer (hc ▸ closers_of_close hcl) rest)
    obtain ⟨t, us, rfl, ht⟩ := exists_of_begins (hu ▸ h.begins)
    obtain ⟨hnc, hne⟩ := ne_of_close hcl
    rw [List.cons_append, expressions, if_neg (hne t.kind ht), bind_finds]
    refine ⟨_, _, hf.size_lt, hf, ?_⟩
    simp [hc, hnc]
  | _, _, .cons h h', us, rest, close, c, hu, hcl, hc => by
    obtain ⟨us, s, vs, rfl, hv, hs, hw⟩ := map_symbol_eq_append_cons hu
    have hsc : s.kind ∈ closers := hs ▸ (by decide)
    have hf := expression_complete h hv (endsExpression_of_closer hsc (vs ++ c :: rest))
    have hf' := items_complete h' rest hw hcl hc
    obtain ⟨t, us, rfl, ht⟩ := exists_of_begins (hv ▸ h.begins)
    rw [List.append_assoc, List.cons_append, List.cons_append, expressions,
      if_neg ((ne_of_close hcl).2 t.kind ht), bind_finds]
    refine ⟨_, _, hf.size_lt, hf, ?_⟩
    simp only [hs, if_true, within_finds, map_finds]
    exact ⟨_, hf', rfl⟩

end

/-! ### Statements -/

theorem expressionThen_complete {close : Kind} (hcl : close ∈ closers) {w : List Symbol}
    {e : Expr String} (h : Expression w e) {us : List Token} (rest : List Token) {c : Token}
    (hu : us.map Token.symbol = w) (hc : c.kind = close) :
    (expressionThen close (us ++ c :: rest)).Finds e rest := by
  have hf := expression_complete h hu (endsExpression_of_closer (hc ▸ hcl) rest)
  simp only [expressionThen, bind_finds, within_finds, map_finds, expect_finds]
  exact ⟨e, c :: rest, hf.size_lt, hf, c, ⟨rfl, hc⟩, rfl⟩

theorem condition_complete {w : List Symbol} {e : Expr String} (h : Expression w e)
    {us : List Token} (rest : List Token) {o c : Token} (ho : o.kind = .leftParen)
    (hu : us.map Token.symbol = w) (hc : c.kind = .rightParen) :
    (condition (o :: (us ++ c :: rest))).Finds e rest := by
  have hf := expressionThen_complete (by decide) h rest hu hc
  simp only [condition, bind_finds, within_finds, expect_finds]
  exact ⟨o, _, by simp, ⟨rfl, ho⟩, hf⟩

theorem indices_complete {w : List Symbol} {es : List (Expr String)} (h : Indices w es)
    {us : List Token} (rest : List Token) {q : Token} (hu : us.map Token.symbol = w)
    (hq : q.kind = .equal) : (indices (us ++ q :: rest)).Finds es rest := by
  induction h generalizing us with
  | nil =>
    obtain rfl := List.map_eq_nil_iff.mp hu
    rw [List.nil_append, indices]
    simp [hq]
  | cons h _ ih =>
    obtain ⟨us, c, vs, rfl, h₁, hc, hw⟩ := map_symbol_eq_append_cons hu
    obtain ⟨o, us, rfl, ho, -, hv⟩ := map_symbol_eq_cons.mp h₁
    have hf := expressionThen_complete (by decide) h (vs ++ q :: rest) hv hc
    have hf' := ih hw
    rw [show o :: us ++ c :: vs ++ q :: rest = o :: (us ++ c :: (vs ++ q :: rest)) by simp,
      indices]
    simp only [ho, bind_finds, within_finds, map_finds]
    exact ⟨_, _, hf.size_lt, hf, _, hf', rfl⟩

/-- No `else` stands here, and no invalid token. -/
def EndsArm (ts : List Token) : Prop := ∀ t ∈ ts.head?, t.kind ≠ .elseWord ∧ t.kind ≠ .invalid

/-- No `else` stands at a closing brace. -/
theorem endsArm_of_brace {c : Token} (hc : c.kind = .rightBrace) (ts : List Token) :
    EndsArm (c :: ts) := by
  simp [EndsArm, hc]

/-- No `else` stands before statements. -/
theorem statements_endsArm {w : List Symbol} {ss : List (Stmt String)} (h : Statements w ss)
    {us : List Token} (rest : List Token) {c : Token} (hu : us.map Token.symbol = w)
    (hc : c.kind = .rightBrace) : EndsArm (us ++ c :: rest) := by
  cases h with
  | nil =>
    obtain rfl := List.map_eq_nil_iff.mp hu
    exact endsArm_of_brace hc rest
  | cons h _ =>
    obtain ⟨t, ts, rfl, ht⟩ := exists_of_begins (hu ▸ h.begins.append _)
    intro u hu
    obtain rfl : t = u := by simpa using hu
    simp only [statementKinds, List.mem_cons, List.not_mem_nil, or_false] at ht
    obtain ht | ht | ht | ht | ht | ht := ht <;> simp [ht]

mutual

theorem block_complete : ∀ {w : List Symbol} {ss : List (Stmt String)}, Block w ss →
    ∀ {us : List Token} (rest : List Token), us.map Token.symbol = w →
    (block (us ++ rest)).Finds ss rest
  | _, _, .braces h, us, rest, hu => by
    obtain ⟨us, c, rfl, h₁, hc⟩ := map_symbol_eq_concat hu
    obtain ⟨o, us, rfl, ho, -, hv⟩ := map_symbol_eq_cons.mp h₁
    have hf := statements_complete h rest hv hc
    rw [show o :: us ++ [c] ++ rest = o :: (us ++ c :: rest) by simp, block]
    simp only [bind_finds, within_finds, expect_finds]
    exact ⟨o, _, by simp, ⟨rfl, ho⟩, hf⟩

theorem statements_complete : ∀ {w : List Symbol} {ss : List (Stmt String)}, Statements w ss →
    ∀ {us : List Token} (rest : List Token) {c : Token}, us.map Token.symbol = w →
    c.kind = .rightBrace → (statements (us ++ c :: rest)).Finds ss rest
  | _, _, .nil, us, rest, c, hu, hc => by
    obtain rfl := List.map_eq_nil_iff.mp hu
    rw [List.nil_append, statements]
    simp [hc]
  | _, _, .cons h h', us, rest, c, hu, hc => by
    obtain ⟨us, vs, rfl, hv, hw⟩ := List.map_eq_append_iff.mp hu
    have hf := statement_complete h hv fun _ => statements_endsArm h' rest hw hc
    have hf' := statements_complete h' rest hw hc
    obtain ⟨t, us, rfl, ht⟩ := exists_of_begins (hv ▸ h.begins)
    have hne : t.kind ≠ .rightBrace := by
      intro he
      simp [he, statementKinds] at ht
    rw [List.append_assoc, List.cons_append, statements, if_neg hne]
    simp only [bind_finds, within_finds, map_finds]
    exact ⟨_, _, hf.size_lt, hf, _, hf', rfl⟩

theorem statement_complete : ∀ {w : List Symbol} {s : Stmt String}, Statement w s →
    ∀ {us rest : List Token}, us.map Token.symbol = w → (s.isOpen = true → EndsArm rest) →
    (statement (us ++ rest)).Finds s rest
  | _, _, .ret h, us, rest, hu, _ => by
    obtain ⟨us, c, rfl, h₁, hc⟩ := map_symbol_eq_concat hu
    obtain ⟨t, us, rfl, ht, -, hv⟩ := map_symbol_eq_cons.mp h₁
    have hf := expressionThen_complete (by decide) h rest hv hc
    obtain ⟨u, us, rfl, hb⟩ := exists_of_begins (hv ▸ h.begins)
    have hne : u.kind ≠ .semicolon := by
      intro he
      simp [he, operandKinds] at hb
    rw [show t :: u :: us ++ [c] ++ rest = t :: u :: (us ++ c :: rest) by simp, statement]
    simp only [ht, within_finds, map_finds]
    refine ⟨_, ?_, rfl⟩
    rw [returned, if_neg hne]
    exact hf
  | _, _, .retNull, us, rest, hu, _ => by
    obtain ⟨t, us, rfl, ht, -, h₁⟩ := map_symbol_eq_cons.mp hu
    obtain ⟨c, us, rfl, hc, -, hn⟩ := map_symbol_eq_cons.mp h₁
    obtain rfl := List.map_eq_nil_iff.mp hn
    rw [show [t, c] ++ rest = t :: c :: rest by simp, statement]
    simp only [ht, within_finds, map_finds]
    exact ⟨.null, by simp [returned, hc], rfl⟩
  | _, _, .run h, us, rest, hu, _ => by
    obtain ⟨us, c, rfl, h₁, hc⟩ := map_symbol_eq_concat hu
    obtain ⟨t, us, rfl, ht, -, hv⟩ := map_symbol_eq_cons.mp h₁
    have hf := expressionThen_complete (by decide) h rest hv hc
    rw [show t :: us ++ [c] ++ rest = t :: (us ++ c :: rest) by simp, statement]
    simp only [ht, within_finds, map_finds]
    exact ⟨_, hf, rfl⟩
  | _, _, .declare h, us, rest, hu, _ => by
    obtain ⟨us, c, rfl, h₁, hc⟩ := map_symbol_eq_concat hu
    obtain ⟨t, us, rfl, ht, -, h₂⟩ := map_symbol_eq_cons.mp h₁
    obtain ⟨i, us, rfl, hi, rfl, h₃⟩ := map_symbol_eq_cons.mp h₂
    obtain ⟨q, us, rfl, hq, -, hv⟩ := map_symbol_eq_cons.mp h₃
    have hf := expressionThen_complete (by decide) h rest hv hc
    rw [show t :: i :: q :: us ++ [c] ++ rest = t :: i :: q :: (us ++ c :: rest) by simp,
      statement]
    simp only [ht, binding, within_finds, bind_finds, map_finds, identifier_finds, expect_finds]
    exact ⟨_, _, by simp, ⟨i, rfl, hi, rfl⟩, q, _, by simp, ⟨rfl, hq⟩, _, hf, rfl⟩
  | _, _, .assign h h', us, rest, hu, _ => by
    obtain ⟨us, c, rfl, h₁, hc⟩ := map_symbol_eq_concat hu
    obtain ⟨us, q, vs, rfl, h₂, hq, hw⟩ := map_symbol_eq_append_cons h₁
    obtain ⟨t, us, rfl, ht, -, h₃⟩ := map_symbol_eq_cons.mp h₂
    obtain ⟨i, us, rfl, hi, rfl, hv⟩ := map_symbol_eq_cons.mp h₃
    have hf := indices_complete h (vs ++ c :: rest) hv hq
    have hf' := expressionThen_complete (by decide) h' rest hw hc
    rw [show t :: i :: us ++ q :: vs ++ [c] ++ rest = t :: i :: (us ++ q :: (vs ++ c :: rest))
      by simp, statement]
    simp only [ht, assignment, within_finds, bind_finds, map_finds, identifier_finds]
    exact ⟨_, _, by simp, ⟨i, rfl, hi, rfl⟩, _, _, hf.size_lt, hf, _, hf', rfl⟩
  | _, _, .loop h h', us, rest, hu, _ => by
    obtain ⟨us, c, vs, rfl, h₁, hc, hw⟩ := map_symbol_eq_append_cons hu
    obtain ⟨t, us, rfl, ht, -, h₂⟩ := map_symbol_eq_cons.mp h₁
    obtain ⟨o, us, rfl, ho, -, hv⟩ := map_symbol_eq_cons.mp h₂
    have hf := condition_complete h (vs ++ rest) ho hv hc
    have hf' := block_complete h' rest hw
    rw [show t :: o :: us ++ c :: vs ++ rest = t :: o :: (us ++ c :: (vs ++ rest)) by simp,
      statement]
    simp only [ht, within_finds, bind_finds, map_finds]
    exact ⟨_, _, hf.size_lt, hf, _, hf', rfl⟩
  | _, _, .choose h h' h'', us, rest, hu, hr => by
    obtain ⟨us, ws, rfl, h₁, hx⟩ := List.map_eq_append_iff.mp hu
    obtain ⟨us, c, vs, rfl, h₂, hc, hw⟩ := map_symbol_eq_append_cons h₁
    obtain ⟨t, us, rfl, ht, -, h₃⟩ := map_symbol_eq_cons.mp h₂
    obtain ⟨o, us, rfl, ho, -, hv⟩ := map_symbol_eq_cons.mp h₃
    have hf := condition_complete h (vs ++ (ws ++ rest)) ho hv hc
    have hf' := block_complete h' (ws ++ rest) hw
    have hf'' := otherwise_complete h'' hx hr
    rw [show t :: o :: us ++ c :: vs ++ ws ++ rest = t :: o :: (us ++ c :: (vs ++ (ws ++ rest)))
      by simp, statement]
    simp only [ht, within_finds, bind_finds, map_finds]
    exact ⟨_, _, hf.size_lt, hf, _, _, hf'.size_lt, hf', _, hf'', rfl⟩

theorem otherwise_complete : ∀ {w : List Symbol} {more : Arms String}, Otherwise w more →
    ∀ {us rest : List Token}, us.map Token.symbol = w → (more.isOpen = true → EndsArm rest) →
    (arms (us ++ rest)).Finds more rest
  | _, _, .done, us, rest, hu, hr => by
    obtain rfl := List.map_eq_nil_iff.mp hu
    rw [List.nil_append, arms.eq_def]
    cases rest with
    | nil => simp
    | cons t rest =>
      obtain ⟨he, hi⟩ := hr rfl t rfl
      simp
  | _, _, .otherwise h, us, rest, hu, _ => by
    obtain ⟨t, us, rfl, ht, -, hv⟩ := map_symbol_eq_cons.mp hu
    have hf := block_complete h rest hv
    obtain ⟨u, us, rfl, hb⟩ := exists_of_begins (hv ▸ h.begins)
    have hne : u.kind ≠ .ifWord := by
      intro he
      simp [he] at hb
    rw [List.cons_append, List.cons_append, arms]
    simp only [ht, if_neg hne, within_finds, map_finds]
    exact ⟨_, hf, rfl⟩
  | _, _, .arm h h' h'', us, rest, hu, hr => by
    obtain ⟨us, ws, rfl, h₁, hx⟩ := List.map_eq_append_iff.mp hu
    obtain ⟨us, c, vs, rfl, h₂, hc, hw⟩ := map_symbol_eq_append_cons h₁
    obtain ⟨t, us, rfl, ht, -, h₃⟩ := map_symbol_eq_cons.mp h₂
    obtain ⟨i, us, rfl, hi, -, h₄⟩ := map_symbol_eq_cons.mp h₃
    obtain ⟨o, us, rfl, ho, -, hv⟩ := map_symbol_eq_cons.mp h₄
    have hf := condition_complete h (vs ++ (ws ++ rest)) ho hv hc
    have hf' := block_complete h' (ws ++ rest) hw
    have hf'' := otherwise_complete h'' hx hr
    rw [show t :: i :: o :: us ++ c :: vs ++ ws ++ rest =
      t :: i :: o :: (us ++ c :: (vs ++ (ws ++ rest))) by simp, arms]
    simp only [ht, hi, if_true, within_finds, bind_finds, map_finds]
    exact ⟨_, _, hf.size_lt, hf, _, _, hf'.size_lt, hf', _, hf'', rfl⟩

end

/-! ### Declarations -/

theorem moreParameters_complete {w : List Symbol} {ns : List String} (h : MoreParameters w ns)
    {us : List Token} (rest : List Token) {c : Token} (hu : us.map Token.symbol = w)
    (hc : c.kind = .rightParen) : (moreParameters (us ++ c :: rest)).Finds ns rest := by
  induction h generalizing us with
  | nil =>
    obtain rfl := List.map_eq_nil_iff.mp hu
    rw [List.nil_append, moreParameters]
    simp [hc]
  | cons _ ih =>
    obtain ⟨t, us, rfl, ht, -, h₁⟩ := map_symbol_eq_cons.mp hu
    obtain ⟨i, us, rfl, hi, rfl, hv⟩ := map_symbol_eq_cons.mp h₁
    have hf := ih hv
    rw [List.cons_append, List.cons_append, moreParameters]
    simp only [ht, bind_finds, within_finds, map_finds, identifier_finds]
    exact ⟨_, _, by simp, ⟨i, rfl, hi, rfl⟩, _, hf, rfl⟩

theorem parameters_complete {w : List Symbol} {ns : List String} (h : Parameters w ns)
    {us : List Token} (rest : List Token) {c : Token} (hu : us.map Token.symbol = w)
    (hc : c.kind = .rightParen) : (parameters (us ++ c :: rest)).Finds ns rest := by
  cases h with
  | nil =>
    obtain rfl := List.map_eq_nil_iff.mp hu
    rw [List.nil_append, parameters]
    simp [hc]
  | cons h =>
    obtain ⟨i, us, rfl, hi, rfl, hv⟩ := map_symbol_eq_cons.mp hu
    have hf := moreParameters_complete h rest hv hc
    rw [List.cons_append, parameters]
    simp only [hi, within_finds, map_finds]
    exact ⟨_, hf, rfl⟩

theorem declaration_complete {w : List Symbol} {d : Declaration String} (h : Decl w d)
    {us : List Token} (rest : List Token) (hu : us.map Token.symbol = w) :
    (declaration (us ++ rest)).Finds d rest := by
  cases h with
  | load hp =>
    rw [← Literal.string_eq_ok_iff_body] at hp
    obtain ⟨t, us, rfl, ht, -, h₁⟩ := map_symbol_eq_cons.mp hu
    obtain ⟨s, us, rfl, hs, rfl, h₂⟩ := map_symbol_eq_cons.mp h₁
    obtain ⟨c, us, rfl, hc, -, hn⟩ := map_symbol_eq_cons.mp h₂
    obtain rfl := List.map_eq_nil_iff.mp hn
    rw [show [t, s, c] ++ rest = t :: s :: c :: rest by simp, declaration]
    simp only [ht, load, within_finds, bind_finds, map_finds, expect_finds, literal_finds]
    exact ⟨s, _, by simp, ⟨rfl, hs⟩, _, _, by simp, ⟨hp, rfl⟩, c, ⟨rfl, hc⟩, rfl⟩
  | global =>
    obtain ⟨t, us, rfl, ht, -, h₁⟩ := map_symbol_eq_cons.mp hu
    obtain ⟨i, us, rfl, hi, rfl, h₂⟩ := map_symbol_eq_cons.mp h₁
    obtain ⟨c, us, rfl, hc, -, hn⟩ := map_symbol_eq_cons.mp h₂
    obtain rfl := List.map_eq_nil_iff.mp hn
    rw [show [t, i, c] ++ rest = t :: i :: c :: rest by simp, declaration]
    simp only [ht, global, within_finds, bind_finds, map_finds, expect_finds, identifier_finds]
    exact ⟨_, _, by simp, ⟨i, rfl, hi, rfl⟩, c, ⟨rfl, hc⟩, rfl⟩
  | define hp hb =>
    obtain ⟨us, c, vs, rfl, h₁, hc, hw⟩ := map_symbol_eq_append_cons hu
    obtain ⟨t, us, rfl, ht, -, h₂⟩ := map_symbol_eq_cons.mp h₁
    obtain ⟨i, us, rfl, hi, rfl, h₃⟩ := map_symbol_eq_cons.mp h₂
    obtain ⟨o, us, rfl, ho, -, hv⟩ := map_symbol_eq_cons.mp h₃
    have hf := parameters_complete hp (vs ++ rest) hv hc
    have hf' := block_complete hb rest hw
    rw [show t :: i :: o :: us ++ c :: vs ++ rest = t :: i :: o :: (us ++ c :: (vs ++ rest))
      by simp, declaration]
    simp only [ht, function, within_finds, bind_finds, map_finds, expect_finds, identifier_finds]
    exact ⟨_, ⟨_, _, by simp, ⟨i, rfl, hi, rfl⟩, o, _, by simp, ⟨rfl, ho⟩, _, _, hf.size_lt, hf,
      _, hf', rfl⟩, rfl⟩

/-- Tokens that are declarations are read to their end, and reading goes on with what follows. -/
theorem declarations_append {w : List Symbol} {ds : List (Declaration String)}
    (h : Decls w ds) {ts : List Token} (hu : ts.map Token.symbol = w) (rest : List Token) :
    declarations (ts ++ rest) = (ds ++ (declarations rest).1, (declarations rest).2) := by
  induction h generalizing ts with
  | nil =>
    obtain rfl := List.map_eq_nil_iff.mp hu
    rfl
  | cons h _ ih =>
    obtain ⟨us, vs, rfl, hv, hw⟩ := List.map_eq_append_iff.mp hu
    have hf := declaration_complete h (vs ++ rest) hv
    obtain ⟨t, us, rfl, -⟩ := exists_of_begins (hv ▸ h.begins)
    rw [List.cons_append] at hf
    rw [List.append_assoc, List.cons_append, declarations]
    split
    · next hd => exact absurd (hd ▸ hf) fault_finds
    · next d rest hr hd =>
      obtain ⟨rfl, rfl⟩ := found_finds.mp (hd ▸ hf)
      rw [ih hw]
      rfl

/-- Tokens that are declarations are read to their end without a fault. -/
theorem declarations_complete {w : List Symbol} {ds : List (Declaration String)}
    (h : Decls w ds) {ts : List Token} (hu : ts.map Token.symbol = w) :
    declarations ts = (ds, none) := by
  have hd := declarations_append h hu []
  rw [declarations] at hd
  simpa using hd

end Parser
end StackScript
