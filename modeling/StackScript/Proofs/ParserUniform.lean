/-
# The parser sees symbols only

Where a token stands has no part in how it is read. Take two lists of tokens of the same length,
with a relation between the tokens at the same place under which they have the same kind and text.
Every reader then does the same on both: it finds the same value and leaves rests that are related
again, or it stops for the same cause and blames related tokens. The relation is a parameter, so
that it can say more about the tokens than the readers look at, such as how far they have moved.

The proofs go by the recursion of the readers, with one lemma for each way of building a reading.

Key definitions: `Reading.Related`, `Fault.Related`.
Key theorems: `Parser.expression_related`, `Parser.statement_related`,
`Parser.declarations_related`.
-/
import Mathlib.Data.List.Forall2
import StackScript.Proofs.Grammar
import StackScript.Tree.Parser

namespace StackScript

/-- The same cause, with related tokens to blame. -/
structure Fault.Related (R : Token → Token → Prop) (f g : Fault) : Prop where
  cause : f.cause = g.cause
  passed : f.passed = g.passed
  blamed : List.Forall₂ R f.blamed g.blamed

namespace Reading

variable {R : Token → Token → Prop} {α β : Type} {k l m n : Nat}

/-- Outcomes with related tokens left or to blame, where what was found is related by `S`. -/
inductive Related (R : Token → Token → Prop) (S : α → α → Prop) :
    TokenReading m α → TokenReading n α → Prop
  | found {a b ts us h h'} : S a b → List.Forall₂ R ts us →
      Related R S (.found a ts h) (.found b us h')
  | fault {f g} : f.Related R g → Related R S (.fault f) (.fault g)

/-- The same outcome, with related tokens left or to blame. -/
abbrev Same (R : Token → Token → Prop) : TokenReading m α → TokenReading n α → Prop :=
  Related R Eq

namespace Related

variable {r : TokenReading m α} {r' : TokenReading n α} {S : α → α → Prop} {T : β → β → Prop}

theorem bind {next : (a : α) → (ts : List Token) → ts.length < m → TokenReading k β}
    {next' : (a : α) → (us : List Token) → us.length < n → TokenReading l β}
    (hr : Related R S r r')
    (hn : ∀ a b ts h us h', S a b → List.Forall₂ R ts us →
      Related R T (next a ts h) (next' b us h')) :
    Related R T (r.bind next) (r'.bind next') := by
  cases hr with
  | fault hf => exact .fault hf
  | found hab hts => exact hn _ _ _ _ _ _ hab hts

theorem map {f : α → β} (hr : Related R S r r') (hf : ∀ a b, S a b → T (f a) (f b)) :
    Related R T (r.map f) (r'.map f) := by
  cases hr with
  | fault hf => exact .fault hf
  | found hab hts => exact .found (hf _ _ hab) hts

theorem within (hr : Related R S r r') {hk : m ≤ k} {hl : n ≤ l} :
    Related R S (r.within hk) (r'.within hl) := by
  cases hr with
  | fault hf => exact .fault hf
  | found hab hts => exact .found hab hts

end Related

namespace Same

variable {r : TokenReading m α} {r' : TokenReading n α}

theorem bind {next : (a : α) → (ts : List Token) → ts.length < m → TokenReading k β}
    {next' : (a : α) → (us : List Token) → us.length < n → TokenReading l β}
    (hr : Same R r r')
    (hn : ∀ a ts h us h', List.Forall₂ R ts us → Same R (next a ts h) (next' a us h')) :
    Same R (r.bind next) (r'.bind next') := by
  refine Related.bind hr fun a b ts h us h' hab hts => ?_
  subst hab
  exact hn a ts h us h' hts

theorem map (hr : Same R r r') (f : α → β) : Same R (r.map f) (r'.map f) :=
  Related.map hr fun _ _ => congrArg f

theorem found {a : α} {ts us : List Token} {h : ts.length < m} {h' : us.length < n}
    (hts : List.Forall₂ R ts us) :
    Same R (.found a ts h : TokenReading m α) (.found a us h' : TokenReading n α) :=
  Related.found rfl hts

theorem fault {cause : Cause} {passed : Bool} {ts us : List Token} (hts : List.Forall₂ R ts us) :
    Same R (.fault ⟨cause, ts, passed⟩ : TokenReading m α)
      (.fault ⟨cause, us, passed⟩ : TokenReading n α) :=
  Related.fault ⟨rfl, rfl, hts⟩

end Same

end Reading

namespace Parser

open Reading

/-! ### Single tokens -/

variable {R : Token → Token → Prop}

section Tokens

variable (hR : ∀ t u, R t u → t.symbol = u.symbol) {t u : Token} {ts us : List Token} {α : Type}

theorem literal_same {value : Except Cause α} (htu : R t u) (h : List.Forall₂ R ts us) :
    Same R (literal value t ts) (literal value u us) := by
  cases value with
  | ok a => exact .found h
  | error cause => exact .fault (.cons htu h)

include hR

theorem kind_eq (htu : R t u) : t.kind = u.kind := congrArg Symbol.kind (hR t u htu)

theorem text_eq (htu : R t u) : t.text = u.text := congrArg Symbol.text (hR t u htu)

/-- A token that has no place where it stands. -/
theorem unexpected_related {cause : Cause} {passed : Bool} (htu : R t u)
    (h : List.Forall₂ R ts us) :
    (Fault.unexpected cause (t :: ts) passed).Related R
      (Fault.unexpected cause (u :: us) passed) := by
  have hall : List.Forall₂ R (t :: ts) (u :: us) := .cons htu h
  rw [Fault.unexpected, Fault.unexpected, kind_eq hR htu]
  by_cases hi : u.kind = .invalid
  · rw [if_pos hi, if_pos hi]
    exact ⟨rfl, rfl, hall⟩
  · rw [if_neg hi, if_neg hi]
    exact ⟨rfl, rfl, hall⟩

theorem expect_related (kind : Kind) (h : List.Forall₂ R ts us) :
    Related R R (expect kind ts) (expect kind us) := by
  cases h with
  | nil => exact .fault ⟨rfl, rfl, .nil⟩
  | @cons t u ts us htu h =>
    rw [expect, expect]
    simp only [kind_eq hR htu]
    by_cases hk : u.kind = kind
    · rw [if_pos hk, if_pos hk]
      exact .found htu h
    · rw [if_neg hk, if_neg hk]
      exact .fault (unexpected_related hR htu h)

/-- What follows an expected token does not depend on where it stood. -/
theorem expect_bind {k l : Nat} {kind : Kind}
    {next : (a : Token) → (rest : List Token) → rest.length < ts.length → TokenReading k α}
    {next' : (a : Token) → (rest : List Token) → rest.length < us.length → TokenReading l α}
    (h : List.Forall₂ R ts us)
    (hn : ∀ t rest hr u rest' hr', R t u → List.Forall₂ R rest rest' →
      Same R (next t rest hr) (next' u rest' hr')) :
    Same R ((expect kind ts).bind next) ((expect kind us).bind next') :=
  Related.bind (expect_related hR kind h) fun _ _ _ _ _ _ htu hrest => hn _ _ _ _ _ _ htu hrest

theorem expect_map {kind : Kind} {f : Token → α} (h : List.Forall₂ R ts us)
    (hf : ∀ t u, R t u → f t = f u) :
    Same R ((expect kind ts).map f) ((expect kind us).map f) :=
  Related.map (expect_related hR kind h) hf

end Tokens

/-! ### Expressions -/

section Readers

variable (hR : ∀ t u, R t u → t.symbol = u.symbol)

include hR

mutual

theorem expression_related : ∀ {ts us : List Token}, List.Forall₂ R ts us →
    Same R (expression ts) (expression us)
  | ts, us, h => by
    rw [expression, expression]
    refine .bind (operand_related h) fun left rest hr rest' hr' hrest => ?_
    cases hrest with
    | nil => exact .found .nil
    | @cons t u rest rest' htu hrest =>
      have hall : List.Forall₂ R (t :: rest) (u :: rest') := .cons htu hrest
      have hlt : rest.length < ts.length := by rw [List.length_cons] at hr; omega
      simp only [kind_eq hR htu]
      cases u.kind.binaryOp? with
      | some op => exact ((expression_related hrest).map _).within
      | none =>
        by_cases hi : u.kind = .invalid
        · simp only [if_pos hi]
          exact .fault hall
        · simp only [if_neg hi]
          exact .found hall
termination_by ts => 3 * ts.length + 1

theorem operand_related : ∀ {ts us : List Token}, List.Forall₂ R ts us →
    Same R (operand ts) (operand us)
  | [], _, .nil => by
    rw [operand_nil]
    exact .fault .nil
  | t :: ts, u :: us, .cons htu h => by
    have word (e : Expr String) : Same R (suffixes e ts) (suffixes e us) := suffixes_related e h
    rw [operand, operand]
    simp only [kind_eq hR htu, Token.name, text_eq hR htu]
    split
    · -- an expression in parentheses
      refine .bind (expression_related h) fun e rest hr rest' hr' hrest => ?_
      refine expect_bind hR hrest fun _ rest _ _ rest' _ _ hrest => ?_
      exact (suffixes_related e hrest).within
    · refine .bind (operand_related h) fun e rest hr rest' hr' hrest => ?_
      exact (suffixes_related _ hrest).within
    · refine .bind (operand_related h) fun e rest hr rest' hr' hrest => ?_
      exact (suffixes_related _ hrest).within
    · refine .bind (expressions_related _ h) fun es rest hr rest' hr' hrest => ?_
      exact (suffixes_related _ hrest).within
    · exact (word _).within
    · exact (word _).within
    · exact (word _).within
    · exact (word _).within
    · refine .bind (literal_same htu h) fun s rest hr rest' hr' hrest => ?_
      exact (suffixes_related _ hrest).within
    · refine .bind (literal_same htu h) fun i rest hr rest' hr' hrest => ?_
      exact (suffixes_related _ hrest).within
    · exact Related.fault (unexpected_related hR htu h)
termination_by ts => 3 * ts.length

theorem suffixes_related : ∀ (e : Expr String) {ts us : List Token}, List.Forall₂ R ts us →
    Same R (suffixes e ts) (suffixes e us)
  | e, [], _, .nil => by
    rw [suffixes]
    exact .found .nil
  | e, t :: ts, u :: us, .cons htu h => by
    rw [suffixes, suffixes]
    simp only [kind_eq hR htu]
    split
    · refine .bind (expressions_related _ h) fun es rest hr rest' hr' hrest => ?_
      exact (suffixes_related _ hrest).within
    · refine .bind (expression_related h) fun key rest hr rest' hr' hrest => ?_
      refine expect_bind hR hrest fun _ rest _ _ rest' _ _ hrest => ?_
      exact (suffixes_related _ hrest).within
    · exact .fault (.cons htu h)
    · exact .found (.cons htu h)
termination_by _ ts => 3 * ts.length

theorem expressions_related : ∀ (close : Kind) {ts us : List Token}, List.Forall₂ R ts us →
    Same R (expressions close ts) (expressions close us)
  | close, [], _, .nil => by
    rw [expressions_nil]
    exact .fault .nil
  | close, t :: ts, u :: us, .cons htu h => by
    have hall : List.Forall₂ R (t :: ts) (u :: us) := .cons htu h
    rw [expressions, expressions]
    simp only [kind_eq hR htu]
    by_cases hc : u.kind = close
    · simp only [if_pos hc]
      exact .found h
    · simp only [if_neg hc]
      refine .bind (expression_related hall) fun e rest hr rest' hr' hrest => ?_
      cases hrest with
      | nil => exact .fault .nil
      | @cons s s' rest rest' hss hrest =>
        have hlt : rest.length < ts.length + 1 := by simp only [List.length_cons] at hr; omega
        simp only [kind_eq hR hss]
        by_cases hs : s'.kind = .comma
        · simp only [if_pos hs]
          exact ((expressions_related close hrest).map _).within
        · simp only [if_neg hs]
          by_cases hs' : s'.kind = close
          · simp only [if_pos hs']
            exact .found hrest
          · simp only [if_neg hs']
            exact Related.fault (unexpected_related hR hss hrest)
termination_by _ ts => 3 * ts.length + 2

end

/-! ### Statements -/

variable {ts us : List Token}

theorem identifier_related (h : List.Forall₂ R ts us) : Same R (identifier ts) (identifier us) :=
  expect_map hR h fun _ _ htu => congrArg String.ofList (text_eq hR htu)

theorem expressionThen_related (close : Kind) (h : List.Forall₂ R ts us) :
    Same R (expressionThen close ts) (expressionThen close us) :=
  .bind (expression_related hR h) fun _ _ _ _ _ hrest =>
    (expect_map hR hrest fun _ _ _ => rfl).within

theorem condition_related (h : List.Forall₂ R ts us) : Same R (condition ts) (condition us) :=
  expect_bind hR h fun _ _ _ _ _ _ _ hrest => (expressionThen_related hR _ hrest).within

theorem returned_related (h : List.Forall₂ R ts us) : Same R (returned ts) (returned us) := by
  cases h with
  | nil => exact .fault .nil
  | @cons t u ts us htu h =>
    rw [returned, returned]
    simp only [kind_eq hR htu]
    by_cases hs : u.kind = .semicolon
    · simp only [if_pos hs]
      exact .found h
    · simp only [if_neg hs]
      exact expressionThen_related hR _ (.cons htu h)

theorem indices_related : ∀ {ts us : List Token}, List.Forall₂ R ts us →
    Same R (indices ts) (indices us)
  | [], _, .nil => by
    rw [indices]
    exact .fault .nil
  | t :: ts, u :: us, .cons htu h => by
    rw [indices, indices]
    simp only [kind_eq hR htu]
    split
    · exact .found h
    · refine .bind (expressionThen_related hR _ h) fun e rest hr rest' hr' hrest => ?_
      have hlt : rest.length < ts.length + 1 := by omega
      exact ((indices_related hrest).map _).within
    · exact Related.fault (unexpected_related hR htu h)
termination_by ts => ts.length

theorem assignment_related (h : List.Forall₂ R ts us) : Same R (assignment ts) (assignment us) :=
  .bind (identifier_related hR h) fun _ _ _ _ _ hrest =>
    .bind (indices_related hR hrest) fun _ _ _ _ _ hrest =>
      ((expressionThen_related hR _ hrest).map _).within

theorem binding_related (h : List.Forall₂ R ts us) : Same R (binding ts) (binding us) :=
  .bind (identifier_related hR h) fun _ _ _ _ _ hrest =>
    expect_bind hR hrest fun _ _ _ _ _ _ _ hrest =>
      ((expressionThen_related hR _ hrest).map _).within

mutual

theorem block_related : ∀ {ts us : List Token}, List.Forall₂ R ts us →
    Same R (block ts) (block us)
  | ts, us, h => by
    rw [block, block]
    exact expect_bind hR h fun _ rest hr _ rest' _ _ hrest => (statements_related hrest).within
termination_by ts => 2 * ts.length

theorem statements_related : ∀ {ts us : List Token}, List.Forall₂ R ts us →
    Same R (statements ts) (statements us)
  | [], _, .nil => by
    rw [statements]
    exact .fault .nil
  | t :: ts, u :: us, .cons htu h => by
    have hall : List.Forall₂ R (t :: ts) (u :: us) := .cons htu h
    rw [statements, statements]
    simp only [kind_eq hR htu]
    by_cases hb : u.kind = .rightBrace
    · simp only [if_pos hb]
      exact .found h
    · simp only [if_neg hb]
      refine .bind (statement_related hall) fun s rest hr rest' hr' hrest => ?_
      have hlt : rest.length < ts.length + 1 := by simpa only [List.length_cons] using hr
      exact ((statements_related hrest).map _).within
termination_by ts => 2 * ts.length + 1

theorem statement_related : ∀ {ts us : List Token}, List.Forall₂ R ts us →
    Same R (statement ts) (statement us)
  | [], _, .nil => by
    rw [statement]
    exact .fault .nil
  | t :: ts, u :: us, .cons htu h => by
    rw [statement, statement]
    simp only [kind_eq hR htu]
    split
    · exact ((returned_related hR h).map _).within
    · exact ((expressionThen_related hR _ h).map _).within
    · exact (binding_related hR h).within
    · exact (assignment_related hR h).within
    · refine .bind (condition_related hR h) fun c rest hr rest' hr' hrest => ?_
      exact ((block_related hrest).map _).within
    · refine .bind (condition_related hR h) fun c rest hr rest' hr' hrest => ?_
      refine .bind (block_related hrest) fun body rest hr rest' hr' hrest => ?_
      exact ((arms_related hrest).map _).within
    · exact Related.fault (unexpected_related hR htu h)
termination_by ts => 2 * ts.length

theorem arms_related : ∀ {ts us : List Token}, List.Forall₂ R ts us →
    Same R (arms ts) (arms us)
  | [], _, .nil => by
    rw [arms]
    exact .found .nil
  | [t], [u], .cons htu .nil => by
    rw [arms, arms]
    simp only [kind_eq hR htu]
    split
    · exact .fault .nil
    · exact .fault (.cons htu .nil)
    · exact .found (.cons htu .nil)
  | t :: v :: ts, u :: w :: us, .cons htu (.cons hvw h) => by
    have hall : List.Forall₂ R (v :: ts) (w :: us) := .cons hvw h
    rw [arms, arms]
    simp only [kind_eq hR htu, kind_eq hR hvw]
    split
    · by_cases hi : w.kind = .ifWord
      · simp only [if_pos hi]
        refine .bind (condition_related hR h) fun c rest hr rest' hr' hrest => ?_
        refine .bind (block_related hrest) fun body rest hr rest' hr' hrest => ?_
        exact ((arms_related hrest).map _).within
      · simp only [if_neg hi]
        exact ((block_related hall).map _).within
    · exact .fault (.cons htu hall)
    · exact .found (.cons htu hall)
termination_by ts => 2 * ts.length

end

/-! ### Declarations -/

theorem moreParameters_related : ∀ {ts us : List Token}, List.Forall₂ R ts us →
    Same R (moreParameters ts) (moreParameters us)
  | [], _, .nil => by
    rw [moreParameters]
    exact .fault .nil
  | t :: ts, u :: us, .cons htu h => by
    rw [moreParameters, moreParameters]
    simp only [kind_eq hR htu]
    split
    · exact .found h
    · refine .bind (identifier_related hR h) fun name rest hr rest' hr' hrest => ?_
      have hlt : rest.length < ts.length + 1 := by omega
      exact ((moreParameters_related hrest).map _).within
    · exact Related.fault (unexpected_related hR htu h)
termination_by ts => ts.length

theorem parameters_related (h : List.Forall₂ R ts us) :
    Same R (parameters ts) (parameters us) := by
  cases h with
  | nil => exact .fault .nil
  | @cons t u ts us htu h =>
    rw [parameters, parameters]
    simp only [kind_eq hR htu, Token.name, text_eq hR htu]
    split
    · exact .found h
    · exact ((moreParameters_related hR h).map _).within
    · exact Related.fault (unexpected_related hR htu h)

theorem function_related (h : List.Forall₂ R ts us) : Same R (function ts) (function us) :=
  .bind (identifier_related hR h) fun _ _ _ _ _ hrest =>
    expect_bind hR hrest fun _ _ _ _ _ _ _ hrest =>
      .bind (parameters_related hR hrest) fun _ _ _ _ _ hrest =>
        ((block_related hR hrest).map _).within

theorem load_related (h : List.Forall₂ R ts us) : Same R (load ts) (load us) := by
  refine expect_bind hR h fun t rest hr u rest' hr' htu hrest => ?_
  rw [text_eq hR htu]
  refine .bind (literal_same htu hrest) fun path rest hr rest' hr' hrest => ?_
  exact (expect_map hR hrest fun _ _ _ => rfl).within

theorem global_related (h : List.Forall₂ R ts us) : Same R (global ts) (global us) :=
  .bind (identifier_related hR h) fun _ _ _ _ _ hrest =>
    (expect_map hR hrest fun _ _ _ => rfl).within

theorem declaration_related (h : List.Forall₂ R ts us) :
    Same R (declaration ts) (declaration us) := by
  cases h with
  | nil => exact .fault .nil
  | @cons t u ts us htu h =>
    rw [declaration, declaration]
    simp only [kind_eq hR htu]
    split
    · exact (load_related hR h).within
    · exact (global_related hR h).within
    · exact ((function_related hR h).map _).within
    · exact Related.fault (unexpected_related hR htu h)

/-- The declarations of related tokens are the same, and so is what stops the reading of them. -/
theorem declarations_related : ∀ {ts us : List Token}, List.Forall₂ R ts us →
    (declarations ts).1 = (declarations us).1 ∧
      Option.Rel (Fault.Related R) (declarations ts).2 (declarations us).2
  | [], _, .nil => by
    rw [declarations]
    exact ⟨rfl, .none⟩
  | t :: ts, u :: us, .cons htu h => by
    have hd := declaration_related hR (.cons htu h)
    rw [declarations, declarations]
    generalize declaration (t :: ts) = r at hd
    generalize declaration (u :: us) = r' at hd
    cases hd with
    | fault hf => exact ⟨rfl, .some hf⟩
    | @found d d' rest rest' hr hr' hdd hrest =>
      have hlt : rest.length < ts.length + 1 := by simpa only [List.length_cons] using hr
      obtain ⟨h₁, h₂⟩ := declarations_related hrest
      exact ⟨congrArg₂ List.cons hdd h₁, h₂⟩
termination_by ts => ts.length

end Readers

end Parser

end StackScript
