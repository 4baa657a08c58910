/-
# What the parser finds is a phrase

Whatever a reader of the parser finds, the tokens that it passed are a phrase of the grammar with
the tree that it built. The proofs go by the recursion of the readers. The calls and indices after
an operand are read with the tree so far as an argument, so for them the statement takes the
phrase before them along.

After a prefix operator the parser looks for calls and indices twice: the operand takes all of
them, so none is left for the operation (`suffixes_ends`), as the grammar says.

Key definition: `Phrase`.
Key theorems: `expression_sound`, `statement_sound`, `declarations_sound`.
-/
import StackScript.Proofs.Grammar
import StackScript.Proofs.Reading

namespace StackScript

/-- The tokens in front of `rest` are a phrase with the tree `a`. -/
def Phrase {α : Type} (P : List Symbol → α → Prop) (ts : List Token) (a : α)
    (rest : List Token) : Prop :=
  ∃ us, ts = us ++ rest ∧ P (us.map Token.symbol) a

theorem Token.symbol_eq {t : Token} {k : Kind} (h : t.kind = k) : t.symbol = ⟨k, t.text⟩ := by
  rw [Token.symbol, h]

/-- The parser knows the operators of the grammar. -/
theorem Kind.binaryOp?_eq_some_iff {k : Kind} {op : BinaryOp} :
    k.binaryOp? = some op ↔ (k, op) ∈ Grammar.operators := by
  constructor
  · intro h
    unfold binaryOp? at h
    split at h <;> cases h <;> decide
  · have hall : ∀ p ∈ Grammar.operators, p.1.binaryOp? = some p.2 := by decide
    exact hall (k, op)

theorem Kind.binaryOp?_eq_none_iff {k : Kind} :
    k.binaryOp? = none ↔ k ∉ Grammar.operators.map Prod.fst := by
  constructor
  · intro h hmem
    obtain ⟨⟨k, op⟩, hop, rfl⟩ := List.mem_map.mp hmem
    rw [← Kind.binaryOp?_eq_some_iff, h] at hop
    cases hop
  · intro h
    cases hop : k.binaryOp? with
    | none => rfl
    | some op => exact absurd (List.mem_map_of_mem (Kind.binaryOp?_eq_some_iff.mp hop)) h

namespace Parser

open Reading Grammar

/-- No call or index begins here, and no invalid token. -/
def EndsOperand (ts : List Token) : Prop :=
  ∀ t ∈ ts.head?, t.kind ≠ .leftParen ∧ t.kind ≠ .leftBracket ∧ t.kind ≠ .invalid

/-- Calls and indices are read as long as there are any. -/
theorem suffixes_ends : ∀ (e : Expr String) (ts : List Token) {e' : Expr String}
    {rest : List Token}, (suffixes e ts).Finds e' rest → EndsOperand rest
  | e, [], e', rest, h => by
    simp only [suffixes, found_finds] at h
    simp [EndsOperand, ← h.2]
  | e, t :: ts, e', rest, h => by
    rw [suffixes] at h
    split at h
    · simp only [bind_finds, within_finds] at h
      obtain ⟨es, mid, hm, -, h⟩ := h
      exact suffixes_ends (.call e es) mid h
    · simp only [bind_finds, within_finds] at h
      obtain ⟨key, mid, hm, -, close, mid', hm', -, h⟩ := h
      exact suffixes_ends (.index e key) mid' h
    · exact absurd h fault_finds
    · next hp hb hi =>
      obtain ⟨-, rfl⟩ := found_finds.mp h
      intro u hu
      rw [List.head?_cons, Option.mem_some_iff] at hu
      exact hu ▸ ⟨hp, hb, hi⟩
termination_by _ ts => ts.length
decreasing_by all_goals (simp only [List.length_cons]; omega)

/-- Where no call or index begins, none is read. -/
theorem suffixes_of_ends {e : Expr String} {ts : List Token} (h : EndsOperand ts) :
    (suffixes e ts).Finds e ts := by
  cases ts with
  | nil => simp [suffixes]
  | cons t ts =>
    obtain ⟨hp, hb, hi⟩ := h t rfl
    rw [suffixes]
    split <;> simp_all

theorem operand_ends {ts : List Token} {e : Expr String} {rest : List Token}
    (h : (operand ts).Finds e rest) : EndsOperand rest := by
  rw [operand.eq_def] at h
  split at h
  · exact absurd h fault_finds
  · split at h
    all_goals simp only [bind_finds, within_finds, fault_finds] at h
    all_goals grind [suffixes_ends]

/-! ### Expressions -/

mutual

theorem expression_sound : ∀ (ts : List Token) {e : Expr String} {rest : List Token},
    (expression ts).Finds e rest → Phrase Expression ts e rest
  | ts, e, rest, h => by
    rw [expression, bind_finds] at h
    obtain ⟨l, mid, hm, hl, h⟩ := h
    obtain ⟨us, hts, hus⟩ := operand_sound ts hl
    cases mid with
    | nil =>
      obtain ⟨rfl, rfl⟩ := found_finds.mp h
      exact ⟨us, hts, .operand hus⟩
    | cons t mid =>
      simp only at h
      split at h
      · next op hop =>
        rw [within_finds, map_finds] at h
        obtain ⟨r, hr, rfl⟩ := h
        have hlt : mid.length < ts.length := by rw [List.length_cons] at hm; omega
        obtain ⟨vs, hmid, hvs⟩ := expression_sound mid hr
        refine ⟨us ++ t :: vs, by simp [hts, hmid], ?_⟩
        rw [List.map_append, List.map_cons]
        exact .binary hus (Kind.binaryOp?_eq_some_iff.mp hop) hvs
      · split at h
        · exact absurd h fault_finds
        · obtain ⟨rfl, rfl⟩ := found_finds.mp h
          exact ⟨us, hts, .operand hus⟩
termination_by ts => 3 * ts.length + 1

theorem operand_sound : ∀ (ts : List Token) {e : Expr String} {rest : List Token},
    (operand ts).Finds e rest → Phrase Operand ts e rest
  | [], e, rest, h => by
    rw [operand_nil] at h
    exact absurd h fault_finds
  | t :: ts, e, rest, h => by
    -- an atom of one token, and what follows it
    have word {a : Expr String} (ha : Atom [t.symbol] a) (h : (suffixes a ts).Finds e rest) :
        Phrase Operand (t :: ts) e rest := by
      obtain ⟨us, hts, hus⟩ := suffixes_sound a ts (.atom ha) h
      exact ⟨t :: us, by rw [hts]; rfl, .chain hus⟩
    rw [operand] at h
    split at h
    · next hk =>
      simp only [bind_finds, within_finds, expect_finds] at h
      obtain ⟨i, mid, hm, hi, c, mid', hm', ⟨rfl, hc⟩, h⟩ := h
      obtain ⟨us, hts, hus⟩ := expression_sound ts hi
      have ha := Atom.parens (a := t.text) (b := c.text) hus
      rw [← Token.symbol_eq hk, ← Token.symbol_eq hc] at ha
      obtain ⟨vs, hmid, hvs⟩ := suffixes_sound i mid' (.atom ha) h
      refine ⟨t :: us ++ c :: vs, by simp [hts, hmid], .chain ?_⟩
      simpa using hvs
    · next hk =>
      simp only [bind_finds, within_finds] at h
      obtain ⟨i, mid, hm, hi, h⟩ := h
      obtain ⟨us, hts, hus⟩ := operand_sound ts hi
      obtain ⟨rfl, rfl⟩ := (suffixes_of_ends (operand_ends hi)).unique h
      refine ⟨t :: us, by rw [hts]; rfl, ?_⟩
      rw [List.map_cons, Token.symbol_eq hk]
      exact .negate hus
    · next hk =>
      simp only [bind_finds, within_finds] at h
      obtain ⟨i, mid, hm, hi, h⟩ := h
      obtain ⟨us, hts, hus⟩ := operand_sound ts hi
      obtain ⟨rfl, rfl⟩ := (suffixes_of_ends (operand_ends hi)).unique h
      refine ⟨t :: us, by rw [hts]; rfl, ?_⟩
      rw [List.map_cons, Token.symbol_eq hk]
      exact .not hus
    · next hk =>
      simp only [bind_finds, within_finds] at h
      obtain ⟨es, mid, hm, hes, h⟩ := h
      obtain ⟨us, c, hts, hc, hus⟩ := expressions_sound .rightBracket ts hes
      have ha := Atom.list (a := t.text) (b := c.text) hus
      rw [← Token.symbol_eq hk, ← Token.symbol_eq hc] at ha
      obtain ⟨vs, hmid, hvs⟩ := suffixes_sound (.list es) mid (.atom ha) h
      refine ⟨t :: us ++ c :: vs, by simp [hts, hmid], .chain ?_⟩
      simpa using hvs
    · next hk => exact word (Token.symbol_eq hk ▸ .true) (within_finds.mp h)
    · next hk => exact word (Token.symbol_eq hk ▸ .false) (within_finds.mp h)
    · next hk => exact word (Token.symbol_eq hk ▸ .null) (within_finds.mp h)
    · next hk => exact word (Token.symbol_eq hk ▸ .name) (within_finds.mp h)
    · next hk =>
      simp only [bind_finds, within_finds, literal_finds] at h
      obtain ⟨i, mid, hm, ⟨hi, rfl⟩, h⟩ := h
      exact word (Token.symbol_eq hk ▸ .string (Literal.string_eq_ok_iff_body.mp hi)) h
    · next hk =>
      simp only [bind_finds, within_finds, literal_finds] at h
      obtain ⟨i, mid, hm, ⟨hi, rfl⟩, h⟩ := h
      obtain ⟨n, hn, hle, hi⟩ := Literal.integer_eq_ok_iff.mp hi
      exact word (Token.symbol_eq hk ▸ .integer hn hle hi) h
    · exact absurd h fault_finds
termination_by ts => 3 * ts.length

theorem suffixes_sound : ∀ (e : Expr String) (ts : List Token) {v : List Symbol}
    {e' : Expr String} {rest : List Token}, Chain v e → (suffixes e ts).Finds e' rest →
    Phrase (fun w => Chain (v ++ w)) ts e' rest
  | e, [], v, e', rest, hv, h => by
    rw [suffixes] at h
    obtain ⟨rfl, rfl⟩ := found_finds.mp h
    exact ⟨[], rfl, by simpa using hv⟩
  | e, t :: ts, v, e', rest, hv, h => by
    rw [suffixes] at h
    split at h
    · next hk =>
      simp only [bind_finds, within_finds] at h
      obtain ⟨es, mid, hm, hes, h⟩ := h
      obtain ⟨us, c, hts, hc, hus⟩ := expressions_sound .rightParen ts hes
      have ha := Chain.call (a := t.text) (b := c.text) hv hus
      rw [← Token.symbol_eq hk, ← Token.symbol_eq hc] at ha
      obtain ⟨vs, hmid, hvs⟩ := suffixes_sound (.call e es) mid ha h
      refine ⟨t :: us ++ c :: vs, by simp [hts, hmid], ?_⟩
      simpa using hvs
    · next hk =>
      simp only [bind_finds, within_finds, expect_finds] at h
      obtain ⟨key, mid, hm, hi, c, mid', hm', ⟨rfl, hc⟩, h⟩ := h
      obtain ⟨us, hts, hus⟩ := expression_sound ts hi
      have ha := Chain.index (a := t.text) (b := c.text) hv hus
      rw [← Token.symbol_eq hk, ← Token.symbol_eq hc] at ha
      obtain ⟨vs, hmid, hvs⟩ := suffixes_sound (.index e key) mid' ha h
      refine ⟨t :: us ++ c :: vs, by simp [hts, hmid], ?_⟩
      simpa using hvs
    · exact absurd h fault_finds
    · obtain ⟨rfl, rfl⟩ := found_finds.mp h
      exact ⟨[], rfl, by simpa using hv⟩
termination_by _ ts => 3 * ts.length

theorem expressions_sound : ∀ (close : Kind) (ts : List Token) {es : List (Expr String)}
    {rest : List Token}, (expressions close ts).Finds es rest →
    ∃ us c, ts = us ++ c :: rest ∧ c.kind = close ∧ Items (us.map Token.symbol) es
  | close, [], es, rest, h => by
    rw [expressions_nil] at h
    exact absurd h fault_finds
  | close, t :: ts, es, rest, h => by
    rw [expressions] at h
    split at h
    · next hk =>
      obtain ⟨rfl, rfl⟩ := found_finds.mp h
      exact ⟨[], t, rfl, hk, .nil⟩
    · rw [bind_finds] at h
      obtain ⟨e, mid, hm, he, h⟩ := h
      obtain ⟨us, hts, hus⟩ := expression_sound (t :: ts) he
      cases mid with
      | nil => exact absurd h fault_finds
      | cons c mid =>
        simp only at h
        split at h
        · next hc =>
          rw [within_finds, map_finds] at h
          obtain ⟨es, hes, rfl⟩ := h
          have hlt : mid.length < ts.length := by simp only [List.length_cons] at hm; omega
          obtain ⟨vs, d, hmid, hd, hvs⟩ := expressions_sound close mid hes
          refine ⟨us ++ c :: vs, d, by simp [hts, hmid], hd, ?_⟩
          rw [List.map_append, List.map_cons, Token.symbol_eq hc]
          exact .cons hus hvs
        · split at h
          · next hc =>
            obtain ⟨rfl, rfl⟩ := found_finds.mp h
            exact ⟨us, c, hts, hc, .last hus⟩
          · exact absurd h fault_finds
termination_by _ ts => 3 * ts.length + 2
decreasing_by all_goals (try simp only [List.length_cons] at *); omega

end

/-! ### Statements -/

theorem identifier_finds {ts rest : List Token} {n : String} : (identifier ts).Finds n rest ↔
    ∃ t, ts = t :: rest ∧ t.kind = .identifier ∧ t.name = n := by
  simp [identifier, expect_finds, and_assoc]

theorem expressionThen_sound {close : Kind} {ts rest : List Token} {e : Expr String}
    (h : (expressionThen close ts).Finds e rest) :
    ∃ us c, ts = us ++ c :: rest ∧ c.kind = close ∧ Expression (us.map Token.symbol) e := by
  simp only [expressionThen, bind_finds, within_finds, map_finds, expect_finds] at h
  obtain ⟨e, mid, -, he, c, ⟨rfl, hc⟩, rfl⟩ := h
  obtain ⟨us, hts, hus⟩ := expression_sound ts he
  exact ⟨us, c, hts, hc, hus⟩

theorem condition_sound {ts rest : List Token} {e : Expr String}
    (h : (condition ts).Finds e rest) :
    ∃ o us c, ts = o :: us ++ c :: rest ∧ o.kind = .leftParen ∧ c.kind = .rightParen ∧
      Expression (us.map Token.symbol) e := by
  simp only [condition, bind_finds, within_finds, expect_finds] at h
  obtain ⟨o, mid, -, ⟨rfl, ho⟩, h⟩ := h
  obtain ⟨us, c, hts, hc, hus⟩ := expressionThen_sound h
  exact ⟨o, us, c, by rw [hts]; rfl, ho, hc, hus⟩

theorem returned_sound {t : Token} {ts rest : List Token} {e : Expr String}
    (ht : t.kind = .returnWord) (h : (returned ts).Finds e rest) :
    Phrase Statement (t :: ts) (.ret e) rest := by
  cases ts with
  | nil => exact absurd h fault_finds
  | cons u ts =>
    rw [returned] at h
    split at h
    · next hu =>
      obtain ⟨rfl, rfl⟩ := found_finds.mp h
      refine ⟨[t, u], rfl, ?_⟩
      simp only [List.map_cons, List.map_nil, Token.symbol_eq ht, Token.symbol_eq hu]
      exact .retNull
    · obtain ⟨us, c, hts, hc, hus⟩ := expressionThen_sound h
      refine ⟨t :: us ++ [c], by simp [hts], ?_⟩
      simp only [List.map_append, List.map_cons, List.map_nil, Token.symbol_eq ht,
        Token.symbol_eq hc]
      exact .ret hus

theorem indices_sound : ∀ (ts : List Token) {es : List (Expr String)} {rest : List Token},
    (indices ts).Finds es rest →
    ∃ us c, ts = us ++ c :: rest ∧ c.kind = .equal ∧ Indices (us.map Token.symbol) es
  | [], es, rest, h => by
    rw [indices] at h
    exact absurd h fault_finds
  | t :: ts, es, rest, h => by
    rw [indices] at h
    split at h
    · next hk =>
      obtain ⟨rfl, rfl⟩ := found_finds.mp h
      exact ⟨[], t, rfl, hk, .nil⟩
    · next hk =>
      simp only [bind_finds, within_finds, map_finds] at h
      obtain ⟨e, mid, hm, he, es, hes, rfl⟩ := h
      obtain ⟨us, c, hts, hc, hus⟩ := expressionThen_sound he
      obtain ⟨vs, d, hmid, hd, hvs⟩ := indices_sound mid hes
      refine ⟨t :: us ++ c :: vs, d, by simp [hts, hmid], hd, ?_⟩
      simp only [List.map_append, List.map_cons, Token.symbol_eq hk, Token.symbol_eq hc]
      exact .cons hus hvs
    · exact absurd h fault_finds
termination_by ts => ts.length
decreasing_by simp only [List.length_cons]; omega

theorem assignment_sound {t : Token} {ts rest : List Token} {s : Stmt String}
    (ht : t.kind = .setWord) (h : (assignment ts).Finds s rest) :
    Phrase Statement (t :: ts) s rest := by
  simp only [assignment, bind_finds, within_finds, map_finds, identifier_finds] at h
  obtain ⟨n, mid, -, ⟨i, rfl, hi, rfl⟩, es, mid', -, hes, e, he, rfl⟩ := h
  obtain ⟨us, q, hmid, hq, hus⟩ := indices_sound mid hes
  obtain ⟨vs, c, hmid', hc, hvs⟩ := expressionThen_sound he
  refine ⟨t :: i :: us ++ q :: vs ++ [c], by simp [hmid, hmid'], ?_⟩
  simp only [List.map_append, List.map_cons, List.map_nil, Token.symbol_eq ht,
    Token.symbol_eq hi, Token.symbol_eq hq, Token.symbol_eq hc]
  exact .assign hus hvs

theorem binding_sound {t : Token} {ts rest : List Token} {s : Stmt String}
    (ht : t.kind = .letWord) (h : (binding ts).Finds s rest) :
    Phrase Statement (t :: ts) s rest := by
  simp only [binding, bind_finds, within_finds, map_finds, identifier_finds, expect_finds] at h
  obtain ⟨n, mid, -, ⟨i, rfl, hi, rfl⟩, q, mid', -, ⟨rfl, hq⟩, e, he, rfl⟩ := h
  obtain ⟨us, c, hmid', hc, hus⟩ := expressionThen_sound he
  refine ⟨t :: i :: q :: us ++ [c], by simp [hmid'], ?_⟩
  simp only [List.map_append, List.map_cons, List.map_nil, Token.symbol_eq ht,
    Token.symbol_eq hi, Token.symbol_eq hq, Token.symbol_eq hc]
  exact .declare hus

mutual

theorem block_sound : ∀ (ts : List Token) {ss : List (Stmt String)} {rest : List Token},
    (block ts).Finds ss rest → Phrase Block ts ss rest
  | ts, ss, rest, h => by
    simp only [block, bind_finds, within_finds, expect_finds] at h
    obtain ⟨o, mid, hm, ⟨rfl, ho⟩, h⟩ := h
    obtain ⟨us, c, hmid, hc, hus⟩ := statements_sound mid h
    refine ⟨o :: us ++ [c], by simp [hmid], ?_⟩
    simp only [List.map_append, List.map_cons, List.map_nil, Token.symbol_eq ho,
      Token.symbol_eq hc]
    exact .braces hus
termination_by ts => 2 * ts.length

theorem statements_sound : ∀ (ts : List Token) {ss : List (Stmt String)} {rest : List Token},
    (statements ts).Finds ss rest →
    ∃ us c, ts = us ++ c :: rest ∧ c.kind = .rightBrace ∧ Statements (us.map Token.symbol) ss
  | [], ss, rest, h => by
    rw [statements] at h
    exact absurd h fault_finds
  | t :: ts, ss, rest, h => by
    rw [statements] at h
    split at h
    · next hk =>
      obtain ⟨rfl, rfl⟩ := found_finds.mp h
      exact ⟨[], t, rfl, hk, .nil⟩
    · simp only [bind_finds, within_finds, map_finds] at h
      obtain ⟨s, mid, hm, hs, ss, hss, rfl⟩ := h
      have hle : mid.length ≤ ts.length := Nat.le_of_lt_succ hm
      obtain ⟨us, hts, hus⟩ := statement_sound (t :: ts) hs
      obtain ⟨vs, c, hmid, hc, hvs⟩ := statements_sound mid hss
      refine ⟨us ++ vs, c, by simp [hts, hmid], hc, ?_⟩
      rw [List.map_append]
      exact .cons hus hvs
termination_by ts => 2 * ts.length + 1

theorem statement_sound : ∀ (ts : List Token) {s : Stmt String} {rest : List Token},
    (statement ts).Finds s rest → Phrase Statement ts s rest
  | [], s, rest, h => by
    rw [statement] at h
    exact absurd h fault_finds
  | t :: ts, s, rest, h => by
    rw [statement] at h
    split at h
    · next hk =>
      simp only [within_finds, map_finds] at h
      obtain ⟨e, he, rfl⟩ := h
      exact returned_sound hk he
    · next hk =>
      simp only [within_finds, map_finds] at h
      obtain ⟨e, he, rfl⟩ := h
      obtain ⟨us, c, hts, hc, hus⟩ := expressionThen_sound he
      refine ⟨t :: us ++ [c], by simp [hts], ?_⟩
      simp only [List.map_append, List.map_cons, List.map_nil, Token.symbol_eq hk,
        Token.symbol_eq hc]
      exact .run hus
    · next hk => exact binding_sound hk (within_finds.mp h)
    · next hk => exact assignment_sound hk (within_finds.mp h)
    · next hk =>
      simp only [bind_finds, within_finds, map_finds] at h
      obtain ⟨e, mid, hm, he, body, hb, rfl⟩ := h
      obtain ⟨o, us, c, hts, ho, hc, hus⟩ := condition_sound he
      obtain ⟨vs, hmid, hvs⟩ := block_sound mid hb
      refine ⟨t :: o :: us ++ c :: vs, by simp [hts, hmid], ?_⟩
      simp only [List.map_append, List.map_cons, Token.symbol_eq hk, Token.symbol_eq ho,
        Token.symbol_eq hc]
      exact .loop hus hvs
    · next hk =>
      simp only [bind_finds, within_finds, map_finds] at h
      obtain ⟨e, mid, hm, he, body, mid', hm', hb, more, hr, rfl⟩ := h
      obtain ⟨o, us, c, hts, ho, hc, hus⟩ := condition_sound he
      obtain ⟨vs, hmid, hvs⟩ := block_sound mid hb
      obtain ⟨ws, hmid', hws⟩ := arms_sound mid' hr
      refine ⟨t :: o :: us ++ c :: vs ++ ws, by simp [hts, hmid, hmid'], ?_⟩
      simp only [List.map_append, List.map_cons, Token.symbol_eq hk, Token.symbol_eq ho,
        Token.symbol_eq hc]
      exact .choose hus hvs hws
    · exact absurd h fault_finds
termination_by ts => 2 * ts.length

theorem arms_sound : ∀ (ts : List Token) {more : Arms String} {rest : List Token},
    (arms ts).Finds more rest → Phrase Otherwise ts more rest
  | [], more, rest, h => by
    rw [arms] at h
    obtain ⟨rfl, rfl⟩ := found_finds.mp h
    exact ⟨[], rfl, .done⟩
  | [t], more, rest, h => by
    rw [arms] at h
    split at h
    · exact absurd h fault_finds
    · exact absurd h fault_finds
    · obtain ⟨rfl, rfl⟩ := found_finds.mp h
      exact ⟨[], rfl, .done⟩
  | t :: u :: ts, more, rest, h => by
    rw [arms] at h
    split at h
    · next hk =>
      split at h
      · next hu =>
        simp only [bind_finds, within_finds, map_finds] at h
        obtain ⟨e, mid, hm, he, body, mid', hm', hb, more, hr, rfl⟩ := h
        obtain ⟨o, us, c, hts, ho, hc, hus⟩ := condition_sound he
        obtain ⟨vs, hmid, hvs⟩ := block_sound mid hb
        obtain ⟨ws, hmid', hws⟩ := arms_sound mid' hr
        refine ⟨t :: u :: o :: us ++ c :: vs ++ ws, by simp [hts, hmid, hmid'], ?_⟩
        simp only [List.map_append, List.map_cons, Token.symbol_eq hk, Token.symbol_eq hu,
          Token.symbol_eq ho, Token.symbol_eq hc]
        exact .arm hus hvs hws
      · simp only [within_finds, map_finds] at h
        obtain ⟨body, hb, rfl⟩ := h
        obtain ⟨us, hts, hus⟩ := block_sound (u :: ts) hb
        refine ⟨t :: us, by rw [hts]; rfl, ?_⟩
        rw [List.map_cons, Token.symbol_eq hk]
        exact .otherwise hus
    · exact absurd h fault_finds
    · obtain ⟨rfl, rfl⟩ := found_finds.mp h
      exact ⟨[], rfl, .done⟩
termination_by ts => 2 * ts.length
decreasing_by all_goals (try simp only [List.length_cons] at *); omega

end

/-! ### Declarations -/

theorem moreParameters_sound : ∀ (ts : List Token) {ns : List String} {rest : List Token},
    (moreParameters ts).Finds ns rest →
    ∃ us c, ts = us ++ c :: rest ∧ c.kind = .rightParen ∧ MoreParameters (us.map Token.symbol) ns
  | [], ns, rest, h => by
    rw [moreParameters] at h
    exact absurd h fault_finds
  | t :: ts, ns, rest, h => by
    rw [moreParameters] at h
    split at h
    · next hk =>
      obtain ⟨rfl, rfl⟩ := found_finds.mp h
      exact ⟨[], t, rfl, hk, .nil⟩
    · next hk =>
      simp only [bind_finds, within_finds, map_finds, identifier_finds] at h
      obtain ⟨n, mid, hm, ⟨i, rfl, hi, rfl⟩, ns, hns, rfl⟩ := h
      obtain ⟨us, c, hmid, hc, hus⟩ := moreParameters_sound mid hns
      refine ⟨t :: i :: us, c, by rw [hmid]; rfl, hc, ?_⟩
      simp only [List.map_cons, Token.symbol_eq hk, Token.symbol_eq hi]
      exact .cons hus
    · exact absurd h fault_finds
termination_by ts => ts.length
decreasing_by simp only [List.length_cons]; omega

theorem parameters_sound {ts rest : List Token} {ns : List String}
    (h : (parameters ts).Finds ns rest) :
    ∃ us c, ts = us ++ c :: rest ∧ c.kind = .rightParen ∧ Parameters (us.map Token.symbol) ns := by
  cases ts with
  | nil => exact absurd h fault_finds
  | cons t ts =>
    rw [parameters] at h
    split at h
    · next hk =>
      obtain ⟨rfl, rfl⟩ := found_finds.mp h
      exact ⟨[], t, rfl, hk, .nil⟩
    · next hk =>
      simp only [within_finds, map_finds] at h
      obtain ⟨ns, hns, rfl⟩ := h
      obtain ⟨us, c, hts, hc, hus⟩ := moreParameters_sound ts hns
      refine ⟨t :: us, c, by rw [hts]; rfl, hc, ?_⟩
      rw [List.map_cons, Token.symbol_eq hk]
      exact .cons hus
    · exact absurd h fault_finds

theorem declaration_sound {ts rest : List Token} {d : Declaration String}
    (h : (declaration ts).Finds d rest) : Phrase Decl ts d rest := by
  cases ts with
  | nil => exact absurd h fault_finds
  | cons t ts =>
    rw [declaration] at h
    split at h
    · next hk =>
      simp only [load, bind_finds, within_finds, map_finds, expect_finds, literal_finds] at h
      obtain ⟨s, mid, -, ⟨rfl, hs⟩, path, mid', -, ⟨hp, rfl⟩, c, ⟨rfl, hc⟩, rfl⟩ := h
      refine ⟨[t, s, c], rfl, ?_⟩
      simp only [List.map_cons, List.map_nil, Token.symbol_eq hk, Token.symbol_eq hs,
        Token.symbol_eq hc]
      exact .load (Literal.string_eq_ok_iff_body.mp hp)
    · next hk =>
      simp only [global, bind_finds, within_finds, map_finds, expect_finds,
        identifier_finds] at h
      obtain ⟨n, mid, -, ⟨i, rfl, hi, rfl⟩, c, ⟨rfl, hc⟩, rfl⟩ := h
      refine ⟨[t, i, c], rfl, ?_⟩
      simp only [List.map_cons, List.map_nil, Token.symbol_eq hk, Token.symbol_eq hi,
        Token.symbol_eq hc]
      exact .global
    · next hk =>
      simp only [function, bind_finds, within_finds, map_finds, expect_finds,
        identifier_finds] at h
      obtain ⟨_, ⟨n, mid, -, ⟨i, rfl, hi, rfl⟩, o, mid', -, ⟨rfl, ho⟩, ps, mid'', -, hps, body,
        hb, rfl⟩, rfl⟩ := h
      obtain ⟨us, c, hmid', hc, hus⟩ := parameters_sound hps
      obtain ⟨vs, hmid'', hvs⟩ := block_sound mid'' hb
      refine ⟨t :: i :: o :: us ++ c :: vs, by simp [hmid', hmid''], ?_⟩
      simp only [List.map_append, List.map_cons, Token.symbol_eq hk, Token.symbol_eq hi,
        Token.symbol_eq ho, Token.symbol_eq hc]
      exact .define hus hvs
    · exact absurd h fault_finds

/-- Declarations that were read without a fault are those of the tokens. -/
theorem declarations_sound : ∀ (ts : List Token) {ds : List (Declaration String)},
    declarations ts = (ds, none) → Decls (ts.map Token.symbol) ds
  | [], ds, h => by
    rw [declarations] at h
    obtain ⟨rfl, -⟩ := Prod.mk.inj h
    exact .nil
  | t :: ts, ds, h => by
    rw [declarations] at h
    split at h
    · simp at h
    · next d rest hr hd =>
      have hle : rest.length ≤ ts.length := Nat.le_of_lt_succ hr
      obtain ⟨us, hts, hus⟩ := declaration_sound ⟨hr, hd⟩
      obtain ⟨rfl, hn⟩ := Prod.mk.inj h
      rw [hts, List.map_append]
      exact .cons hus (declarations_sound rest (Prod.ext rfl hn))
termination_by ts => ts.length

end Parser
end StackScript
