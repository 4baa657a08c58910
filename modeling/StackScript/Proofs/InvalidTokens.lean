/-
# Invalid tokens are not passed

A reader that meets a token which is none of the language stops in front of it: the fault keeps
that token as the one to blame and does not pass it. No other fault has the wording for it, in
particular not one in a literal, whose token was valid.

The proof takes a property of faults through the readers, with one lemma for each way of building
a reading, and then checks the places where a fault begins.

Key definitions: `Reading.FaultsOnly`, `Fault.KeepsInvalid`.
Key theorems: `Cause.message_eq_invalidToken`, `Parser.expression_keeps`,
`Parser.declarations_keeps`.
-/
import StackScript.Proofs.Blame

namespace StackScript

namespace Reading

variable {σ ε α β : Type} {size : σ → Nat} {m n : Nat} {P : ε → Prop}

/-- Whatever a reading stops at has the property. -/
def FaultsOnly (P : ε → Prop) (r : Reading size ε n α) : Prop := ∀ e, r.Stops e → P e

namespace FaultsOnly

theorem found {a : α} {rest : σ} {h : size rest < n} :
    (Reading.found a rest h : Reading size ε n α).FaultsOnly P := by
  intro e hs
  exact absurd hs found_stops

theorem fault {e : ε} (h : P e) : (Reading.fault e : Reading size ε n α).FaultsOnly P := by
  intro e' hs
  rwa [← fault_stops.mp hs]

variable {r : Reading size ε m α}

theorem within (hr : r.FaultsOnly P) {h : m ≤ n} : (r.within h).FaultsOnly P := by
  intro e hs
  exact hr e (within_stops.mp hs)

theorem map (hr : r.FaultsOnly P) (f : α → β) : (r.map f).FaultsOnly P := by
  intro e hs
  exact hr e (map_stops.mp hs)

theorem bind {next : (a : α) → (rest : σ) → size rest < m → Reading size ε n β}
    (hr : r.FaultsOnly P) (hn : ∀ a rest h, (next a rest h).FaultsOnly P) :
    (r.bind next).FaultsOnly P := by
  intro e hs
  rcases bind_stops.mp hs with hs | ⟨a, mid, h, -, hs⟩
  · exact hr e hs
  · exact hn a mid h e hs

end FaultsOnly

end Reading

/-! ### Where a fault begins -/

/-- The wording for an invalid token is used for nothing else. -/
theorem Cause.message_eq_invalidToken {c : Cause} :
    c.message = "invalid token" ↔ c = .invalidToken := by
  constructor
  · -- the two wordings that name a kind of token begin with another letter
    have hexpected (a b : String) (ha : a.toList.head? = some 'e') : a ++ b ≠ "invalid token" := by
      intro h
      have hhead := congrArg (·.toList.head?) h
      simp [ha] at hhead
    intro h
    cases c with
    | invalidToken => rfl
    | expected kind => exact absurd h (hexpected _ _ rfl)
    | expectedSeparator close => exact absurd h (hexpected _ _ rfl)
    | _ => exact absurd h (by decide)
  · rintro rfl
    rfl

theorem map_ne_error {α β : Type} {f : α → β} {x : Except Cause α} {c : Cause}
    (h : x ≠ .error c) : x.map f ≠ .error c := by
  cases x with
  | ok a => simp [Except.map]
  | error d => simpa [Except.map] using h

namespace Literal

theorem integer_ne_invalidToken (text : List Char) : integer text ≠ .error .invalidToken := by
  unfold integer
  by_cases hd : text.all Char.isDigit
  · by_cases hv : digitsValue text ≤ maxInteger
    · simp [hd, hv]
    · simp [hd, hv]
  · simp [hd]

theorem decode_ne_invalidToken (cs : List Char) : decode cs ≠ .error .invalidToken := by
  fun_induction decode cs with
  | case1 => simp
  | case2 a b cs c hc ih => exact map_ne_error ih
  | case3 => simp
  | case4 => simp
  | case5 c cs hx hxx d hd ih => exact map_ne_error ih
  | case6 => simp
  | case7 => simp
  | case8 c cs hx hxx hb hbb ih => exact map_ne_error ih

theorem string_ne_invalidToken (text : List Char) : string text ≠ .error .invalidToken :=
  map_ne_error (decode_ne_invalidToken _)

end Literal

/-- A fault for an invalid token has that token at its front, and has not passed it. -/
def Fault.KeepsInvalid (f : Fault) : Prop :=
  f.cause = .invalidToken → f.passed = false ∧ ∃ t ∈ f.blamed.head?, t.kind = .invalid

namespace Fault.KeepsInvalid

theorem of_ne {f : Fault} (h : f.cause ≠ .invalidToken) : f.KeepsInvalid :=
  fun hc => absurd hc h

theorem here {t : Token} (h : t.kind = .invalid) (ts : List Token) :
    (⟨.invalidToken, t :: ts, false⟩ : Fault).KeepsInvalid :=
  fun _ => ⟨rfl, t, rfl, h⟩

theorem unexpected {cause : Cause} {t : Token} {ts : List Token} {passed : Bool}
    (h : cause ≠ .invalidToken) :
    (Fault.unexpected cause (t :: ts) passed).KeepsInvalid := by
  unfold Fault.unexpected
  by_cases hi : t.kind = .invalid
  · simp only [if_pos hi]
    exact here hi ts
  · simp only [if_neg hi]
    exact of_ne h

end Fault.KeepsInvalid

open Reading

/-- The reading passes no invalid token. -/
abbrev Reading.Keeps {n : Nat} {α : Type} (r : TokenReading n α) : Prop :=
  r.FaultsOnly Fault.KeepsInvalid

theorem expect_keeps (kind : Kind) (ts : List Token) : (expect kind ts).Keeps := by
  cases ts with
  | nil => exact .fault (.of_ne (by simp))
  | cons t ts =>
    rw [expect]
    by_cases hk : t.kind = kind
    · rw [if_pos hk]
      exact .found
    · rw [if_neg hk]
      exact .fault (.unexpected (by simp))

theorem literal_keeps {α : Type} {value : Except Cause α} (h : value ≠ .error .invalidToken)
    (t : Token) (ts : List Token) : (literal value t ts).Keeps := by
  cases value with
  | ok a => exact .found
  | error cause => exact .fault (.of_ne fun hc => h (congrArg Except.error hc))

namespace Parser

/-! ### Expressions -/

mutual

theorem expression_keeps (ts : List Token) : (expression ts).Keeps := by
  rw [expression]
  refine (operand_keeps ts).bind fun left rest hr => ?_
  cases rest with
  | nil => exact .found
  | cons t rest =>
    have hlt : rest.length < ts.length := by rw [List.length_cons] at hr; omega
    cases hop : t.kind.binaryOp? with
    | some op =>
      simp only [hop]
      exact ((expression_keeps rest).map _).within
    | none =>
      by_cases hi : t.kind = .invalid
      · simp only [hop, if_pos hi]
        exact .fault (.here hi rest)
      · simp only [hop, if_neg hi]
        exact .found
termination_by 3 * ts.length + 1

theorem operand_keeps (ts : List Token) : (operand ts).Keeps := by
  cases ts with
  | nil =>
    rw [operand_nil]
    exact .fault (.of_ne (by simp))
  | cons t ts =>
    have word (e : Expr String) : (suffixes e ts).Keeps := suffixes_keeps e ts
    rw [operand]
    split
    · -- an expression in parentheses
      refine (expression_keeps ts).bind fun e rest hr => ?_
      refine (expect_keeps _ rest).bind fun _ rest hr => ?_
      exact (suffixes_keeps e rest).within
    · refine (operand_keeps ts).bind fun e rest hr => ?_
      exact (suffixes_keeps _ rest).within
    · refine (operand_keeps ts).bind fun e rest hr => ?_
      exact (suffixes_keeps _ rest).within
    · refine (expressions_keeps _ ts).bind fun es rest hr => ?_
      exact (suffixes_keeps _ rest).within
    · exact (word _).within
    · exact (word _).within
    · exact (word _).within
    · exact (word _).within
    · refine (literal_keeps (Literal.string_ne_invalidToken _) t ts).bind fun s rest hr => ?_
      exact (suffixes_keeps _ rest).within
    · refine (literal_keeps (Literal.integer_ne_invalidToken _) t ts).bind fun i rest hr => ?_
      exact (suffixes_keeps _ rest).within
    · exact .fault (.unexpected (by simp))
termination_by 3 * ts.length

theorem suffixes_keeps (e : Expr String) (ts : List Token) : (suffixes e ts).Keeps := by
  cases ts with
  | nil =>
    rw [suffixes]
    exact .found
  | cons t ts =>
    rw [suffixes]
    split
    · refine (expressions_keeps _ ts).bind fun es rest hr => ?_
      exact (suffixes_keeps _ rest).within
    · refine (expression_keeps ts).bind fun key rest hr => ?_
      refine (expect_keeps _ rest).bind fun _ rest hr => ?_
      exact (suffixes_keeps _ rest).within
    · next hi => exact .fault (.here hi ts)
    · exact .found
termination_by 3 * ts.length

theorem expressions_keeps (close : Kind) (ts : List Token) : (expressions close ts).Keeps := by
  cases ts with
  | nil =>
    rw [expressions_nil]
    exact .fault (.of_ne (by simp))
  | cons t ts =>
    rw [expressions]
    by_cases hc : t.kind = close
    · simp only [if_pos hc]
      exact .found
    · simp only [if_neg hc]
      refine (expression_keeps (t :: ts)).bind fun e rest hr => ?_
      cases rest with
      | nil => exact .fault (.of_ne (by simp))
      | cons s rest =>
        have hlt : rest.length < ts.length + 1 := by simp only [List.length_cons] at hr; omega
        by_cases hs : s.kind = .comma
        · simp only [if_pos hs]
          exact ((expressions_keeps close rest).map _).within
        · simp only [if_neg hs]
          by_cases hs' : s.kind = close
          · simp only [if_pos hs']
            exact .found
          · simp only [if_neg hs']
            exact .fault (.unexpected (by simp))
termination_by 3 * ts.length + 2

end

/-! ### Statements -/

theorem identifier_keeps (ts : List Token) : (identifier ts).Keeps := (expect_keeps _ ts).map _

theorem expressionThen_keeps (close : Kind) (ts : List Token) : (expressionThen close ts).Keeps :=
  (expression_keeps ts).bind fun _ rest _ => ((expect_keeps _ rest).map _).within

theorem condition_keeps (ts : List Token) : (condition ts).Keeps :=
  (expect_keeps _ ts).bind fun _ rest _ => (expressionThen_keeps _ rest).within

theorem returned_keeps (ts : List Token) : (returned ts).Keeps := by
  cases ts with
  | nil => exact .fault (.of_ne (by simp))
  | cons t ts =>
    rw [returned]
    by_cases hs : t.kind = .semicolon
    · simp only [if_pos hs]
      exact .found
    · simp only [if_neg hs]
      exact expressionThen_keeps _ (t :: ts)

theorem indices_keeps (ts : List Token) : (indices ts).Keeps := by
  cases ts with
  | nil =>
    rw [indices]
    exact .fault (.of_ne (by simp))
  | cons t ts =>
    rw [indices]
    split
    · exact .found
    · refine (expressionThen_keeps _ ts).bind fun e rest hr => ?_
      exact ((indices_keeps rest).map _).within
    · exact .fault (.unexpected (by simp))
termination_by ts.length

theorem assignment_keeps (ts : List Token) : (assignment ts).Keeps :=
  (identifier_keeps ts).bind fun _ rest _ =>
    (indices_keeps rest).bind fun _ rest _ => ((expressionThen_keeps _ rest).map _).within

theorem binding_keeps (ts : List Token) : (binding ts).Keeps :=
  (identifier_keeps ts).bind fun _ rest _ =>
    (expect_keeps _ rest).bind fun _ rest _ => ((expressionThen_keeps _ rest).map _).within

mutual

theorem block_keeps (ts : List Token) : (block ts).Keeps := by
  rw [block]
  exact (expect_keeps _ ts).bind fun _ rest hr => (statements_keeps rest).within
termination_by 2 * ts.length

theorem statements_keeps (ts : List Token) : (statements ts).Keeps := by
  cases ts with
  | nil =>
    rw [statements]
    exact .fault (.of_ne (by simp))
  | cons t ts =>
    rw [statements]
    by_cases hb : t.kind = .rightBrace
    · simp only [if_pos hb]
      exact .found
    · simp only [if_neg hb]
      refine (statement_keeps (t :: ts)).bind fun s rest hr => ?_
      have hlt : rest.length < ts.length + 1 := by simpa only [List.length_cons] using hr
      exact ((statements_keeps rest).map _).within
termination_by 2 * ts.length + 1

theorem statement_keeps (ts : List Token) : (statement ts).Keeps := by
  cases ts with
  | nil =>
    rw [statement]
    exact .fault (.of_ne (by simp))
  | cons t ts =>
    rw [statement]
    split
    · exact ((returned_keeps ts).map _).within
    · exact ((expressionThen_keeps _ ts).map _).within
    · exact (binding_keeps ts).within
    · exact (assignment_keeps ts).within
    · refine (condition_keeps ts).bind fun c rest hr => ?_
      exact ((block_keeps rest).map _).within
    · refine (condition_keeps ts).bind fun c rest hr => ?_
      refine (block_keeps rest).bind fun body rest hr => ?_
      exact ((arms_keeps rest).map _).within
    · exact .fault (.unexpected (by simp))
termination_by 2 * ts.length

theorem arms_keeps (ts : List Token) : (arms ts).Keeps := by
  cases ts with
  | nil =>
    rw [arms]
    exact .found
  | cons t ts =>
    cases ts with
    | nil =>
      rw [arms]
      split
      · exact .fault (.of_ne (by simp))
      · next hi => exact .fault (.here hi [])
      · exact .found
    | cons u ts =>
      rw [arms]
      split
      · by_cases hu : u.kind = .ifWord
        · simp only [if_pos hu]
          refine (condition_keeps ts).bind fun c rest hr => ?_
          refine (block_keeps rest).bind fun body rest hr => ?_
          exact ((arms_keeps rest).map _).within
        · simp only [if_neg hu]
          exact ((block_keeps (u :: ts)).map _).within
      · next hi => exact .fault (.here hi (u :: ts))
      · exact .found
termination_by 2 * ts.length

end

/-! ### Declarations -/

theorem moreParameters_keeps (ts : List Token) : (moreParameters ts).Keeps := by
  cases ts with
  | nil =>
    rw [moreParameters]
    exact .fault (.of_ne (by simp))
  | cons t ts =>
    rw [moreParameters]
    split
    · exact .found
    · refine (identifier_keeps ts).bind fun name rest hr => ?_
      exact ((moreParameters_keeps rest).map _).within
    · exact .fault (.unexpected (by simp))
termination_by ts.length

theorem parameters_keeps (ts : List Token) : (parameters ts).Keeps := by
  cases ts with
  | nil => exact .fault (.of_ne (by simp))
  | cons t ts =>
    rw [parameters]
    split
    · exact .found
    · exact ((moreParameters_keeps ts).map _).within
    · exact .fault (.unexpected (by simp))

theorem function_keeps (ts : List Token) : (function ts).Keeps :=
  (identifier_keeps ts).bind fun _ rest _ =>
    (expect_keeps _ rest).bind fun _ rest _ =>
      (parameters_keeps rest).bind fun _ rest _ => ((block_keeps rest).map _).within

theorem load_keeps (ts : List Token) : (load ts).Keeps :=
  (expect_keeps _ ts).bind fun t rest _ =>
    (literal_keeps (Literal.string_ne_invalidToken _) t rest).bind fun _ rest _ =>
      ((expect_keeps _ rest).map _).within

theorem global_keeps (ts : List Token) : (global ts).Keeps :=
  (identifier_keeps ts).bind fun _ rest _ => ((expect_keeps _ rest).map _).within

theorem declaration_keeps (ts : List Token) : (declaration ts).Keeps := by
  cases ts with
  | nil => exact .fault (.of_ne (by simp))
  | cons t ts =>
    rw [declaration]
    split
    · exact (load_keeps ts).within
    · exact (global_keeps ts).within
    · exact ((function_keeps ts).map _).within
    · exact .fault (.unexpected (by simp))

/-- Where reading declarations stops, an invalid token was not passed. -/
theorem declarations_keeps (ts : List Token) : ∀ f ∈ (declarations ts).2, f.KeepsInvalid := by
  cases ts with
  | nil =>
    rw [declarations]
    simp
  | cons t ts =>
    rw [declarations]
    cases hd : declaration (t :: ts) with
    | fault f =>
      have hf : f.KeepsInvalid := declaration_keeps _ f hd
      simpa using hf
    | found d rest hr =>
      have hlt : rest.length < ts.length + 1 := by simpa only [List.length_cons] using hr
      exact declarations_keeps rest
termination_by ts.length

end Parser

end StackScript
