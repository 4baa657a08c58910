/-
# Blaming the first token that cannot go on

When a reader stops, two things hold of the token that it blames. The tokens before it are the
beginning of a phrase: a few symbols, filled in after them, complete them to one. And with the
blamed token next no phrase can be read: the reader fails whatever comes after that token. If the
end of the source is to blame there is nothing to say about what comes after it.

`Blames` puts the two together. It is carried through a reader by two lemmas: the part that failed
may be the first part of a phrase (`Blames.mono`), or it may follow a part that was found
(`Blames.after`). In the second case the part in front has to be found again in front of other
tokens. It is, because it was found by looking at most at the first token after it, and that token
is the same.

Here this is done for expressions, by the recursion of their readers.

Key definitions: `Reading.Stops`, `Grammar.Viable`, `Blames`.
Key theorems: `Blames.after`, `Parser.expression_again`, `Parser.expression_blames`.
-/
import StackScript.Proofs.ParserComplete

namespace StackScript

namespace Reading

variable {σ ε α β : Type} {size : σ → Nat} {m n : Nat}

/-- The reading stopped at this fault. -/
def Stops (r : Reading size ε n α) (e : ε) : Prop := r = .fault e

/-- The reading stopped at a fault. -/
def Fails (r : Reading size ε n α) : Prop := ∃ e, r.Stops e

@[simp] theorem found_stops {a : α} {rest : σ} {h : size rest < n} {e : ε} :
    ¬ (found a rest h : Reading size ε n α).Stops e := by
  intro hs
  cases hs

@[simp] theorem fault_stops {e e' : ε} : (fault e : Reading size ε n α).Stops e' ↔ e = e' := by
  simp [Stops]

@[simp] theorem within_stops {r : Reading size ε m α} {h : m ≤ n} {e : ε} :
    (r.within h).Stops e ↔ r.Stops e := by
  cases r <;> simp [within]

@[simp] theorem map_stops {r : Reading size ε n α} {f : α → β} {e : ε} :
    (r.map f).Stops e ↔ r.Stops e := by
  cases r <;> simp [map]

/-- A reading in two parts stops in the first, or in the second after the first was found. -/
theorem bind_stops {r : Reading size ε m α}
    {next : (value : α) → (rest : σ) → size rest < m → Reading size ε n β} {e : ε} :
    (r.bind next).Stops e ↔
      r.Stops e ∨ ∃ a mid, ∃ h : size mid < m, r.Finds a mid ∧ (next a mid h).Stops e := by
  cases r with
  | fault e' => simp [bind]
  | found a mid h =>
    constructor
    · intro hb
      exact .inr ⟨a, mid, h, by simp, hb⟩
    · rintro (hb | ⟨a', mid', h', ha, hb⟩)
      · exact absurd hb found_stops
      · obtain ⟨rfl, rfl⟩ := found_finds.mp ha
        exact hb

@[simp] theorem fault_fails {e : ε} : (fault e : Reading size ε n α).Fails := ⟨e, rfl⟩

@[simp] theorem within_fails {r : Reading size ε m α} {h : m ≤ n} :
    (r.within h).Fails ↔ r.Fails := by
  simp [Fails]

@[simp] theorem map_fails {r : Reading size ε n α} {f : α → β} : (r.map f).Fails ↔ r.Fails := by
  simp [Fails]

theorem bind_fails {r : Reading size ε m α}
    {next : (value : α) → (rest : σ) → size rest < m → Reading size ε n β} :
    (r.bind next).Fails ↔
      r.Fails ∨ ∃ a mid, ∃ h : size mid < m, r.Finds a mid ∧ (next a mid h).Fails := by
  cases r with
  | fault e => simp [bind]
  | found a mid h =>
    constructor
    · intro hb
      exact .inr ⟨a, mid, h, by simp, hb⟩
    · rintro (⟨e, hb⟩ | ⟨a', mid', h', ha, hb⟩)
      · exact absurd hb found_stops
      · obtain ⟨rfl, rfl⟩ := found_finds.mp ha
        exact hb

/-- The first part fails, so the whole does. -/
theorem Fails.bind {r : Reading size ε m α}
    {next : (value : α) → (rest : σ) → size rest < m → Reading size ε n β} (h : r.Fails) :
    (r.bind next).Fails :=
  bind_fails.mpr (.inl h)

/-- The second part fails after the first was found, so the whole does. -/
theorem Finds.then_fails {r : Reading size ε m α}
    {next : (value : α) → (rest : σ) → size rest < m → Reading size ε n β} {a : α}
    {mid : σ} (h : r.Finds a mid) (hn : (next a mid h.size_lt).Fails) :
    (r.bind next).Fails :=
  bind_fails.mpr (.inr ⟨a, mid, h.size_lt, h, hn⟩)

theorem Finds.not_stops {r : Reading size ε n α} {a : α} {rest : σ} {e : ε}
    (h : r.Finds a rest) : ¬ r.Stops e := by
  obtain ⟨hr, rfl⟩ := h
  exact found_stops

end Reading

open Reading

theorem Fault.blamed_unexpected (cause : Cause) (ts : List Token) (passed : Bool) :
    (Fault.unexpected cause ts passed).blamed = ts := by
  cases ts with
  | nil => rfl
  | cons t ts =>
    unfold Fault.unexpected
    by_cases h : t.kind = .invalid
    · simp [h]
    · simp [h]

theorem expect_stops {kind : Kind} {ts : List Token} {f : Fault} (h : (expect kind ts).Stops f) :
    f.blamed = ts ∧ ∀ t ∈ ts.head?, t.kind ≠ kind := by
  cases ts with
  | nil =>
    obtain rfl := fault_stops.mp h
    exact ⟨rfl, by simp⟩
  | cons t ts =>
    rw [expect] at h
    by_cases hk : t.kind = kind
    · rw [if_pos hk] at h
      exact absurd h found_stops
    · rw [if_neg hk] at h
      obtain rfl := fault_stops.mp h
      exact ⟨Fault.blamed_unexpected _ _ _, by simpa using hk⟩

theorem expect_fails {kind : Kind} {t : Token} (h : t.kind ≠ kind) (ts : List Token) :
    (expect kind (t :: ts)).Fails := by
  rw [expect, if_neg h]
  exact fault_fails

theorem expect_cons {kind : Kind} {t : Token} (h : t.kind = kind) (ts : List Token) :
    (expect kind (t :: ts)).Finds t ts :=
  expect_finds.mpr ⟨rfl, h⟩

theorem literal_stops {α : Type} {value : Except Cause α} {t : Token} {ts : List Token}
    {f : Fault} (h : (literal value t ts).Stops f) :
    f.blamed = t :: ts ∧ ∀ us, (literal value t us).Fails := by
  cases value with
  | ok a => exact absurd h found_stops
  | error cause =>
    obtain rfl := fault_stops.mp h
    exact ⟨rfl, fun us => fault_fails⟩

/-! ### Beginnings of phrases -/

namespace Grammar

variable {α : Type}

/-- The symbols are some phrase of a class. -/
def Word (P : List Symbol → α → Prop) (w : List Symbol) : Prop := ∃ a, P w a

/-- A phrase of a class, and the symbol that closes it. -/
def Closed (P : List Symbol → α → Prop) (close : Kind) (w : List Symbol) : Prop :=
  ∃ v c a, w = v ++ [⟨close, c⟩] ∧ P v a

/-- One symbol of a kind. -/
def Single (kind : Kind) (w : List Symbol) : Prop := ∃ a, w = [⟨kind, a⟩]

/-- An expression in parentheses. -/
def Condition (w : List Symbol) : Prop :=
  ∃ o v, w = ⟨.leftParen, o⟩ :: v ∧ Closed Expression .rightParen v

/-- How a symbol is spelled that is filled in. -/
def spelling : Kind → List Char
  | .globalWord => ['g', 'l', 'o', 'b', 'a', 'l']
  | .returnWord => ['r', 'e', 't', 'u', 'r', 'n']
  | .nullWord => ['n', 'u', 'l', 'l']
  | .identifier => ['x']
  | .string => ['"', '"']
  | .equal => ['=']
  | .leftParen => ['(']
  | .rightParen => [')']
  | .rightBracket => [']']
  | .leftBrace => ['\x7b']
  | .rightBrace => ['\x7d']
  | .semicolon => [';']
  | _ => []

/-- The kinds of symbol that are filled in. -/
def fillers : List Kind :=
  [.globalWord, .returnWord, .nullWord, .identifier, .string, .equal, .leftParen, .rightParen,
    .rightBracket, .leftBrace, .rightBrace, .semicolon]

/-- The symbol of a kind that is filled in. -/
abbrev fill (kind : Kind) : Symbol := ⟨kind, spelling kind⟩

/-- The symbols begin a phrase: some symbols that are filled in complete them. -/
def Viable (P : List Symbol → Prop) (v : List Symbol) : Prop :=
  ∃ ks : List Kind, (∀ k ∈ ks, k ∈ fillers) ∧ P (v ++ ks.map fill)

variable {P Q : List Symbol → Prop} {v : List Symbol}

theorem Viable.of (h : P v) : Viable P v := ⟨[], by simp, by simpa using h⟩

theorem Viable.fill (ks : List Kind) (hks : ∀ k ∈ ks, k ∈ fillers)
    (h : P (v ++ ks.map fill)) : Viable P v :=
  ⟨ks, hks, h⟩

theorem Viable.trans {u : List Symbol} (h : Viable P v)
    (hP : ∀ w, P w → Viable Q (u ++ w)) : Viable Q (u ++ v) := by
  obtain ⟨x, hx, hvx⟩ := h
  obtain ⟨y, hy, hq⟩ := hP _ hvx
  refine ⟨x ++ y, ?_, by simpa using hq⟩
  intro s hs
  rcases List.mem_append.mp hs with hs | hs
  · exact hx s hs
  · exact hy s hs

/-- The expression that is filled in where one is missing. -/
theorem expression_null : Expression [fill .nullWord] .null :=
  .operand (.chain (.atom .null))

/-- The block that is filled in where one is missing. -/
theorem block_empty : Block [fill .leftBrace, fill .rightBrace] [] := .braces .nil

/-- A phrase that only misses its closing symbol. -/
theorem Word.viable_closed {P : List Symbol → α → Prop} {close : Kind} (h : Word P v)
    (hc : close ∈ fillers) : Viable (Closed P close) v := by
  obtain ⟨a, ha⟩ := h
  exact ⟨[close], by simpa using hc, v, spelling close, a, rfl, ha⟩

end Grammar

open Grammar

/-- The fault blames the token that it should, in tokens that were read as a phrase of the class
`P`: what stands before it begins a phrase, and with it next the reading fails, as `F` says. -/
def Blames (P : List Symbol → Prop) (F : List Token → Prop) (ts : List Token) (f : Fault) : Prop :=
  ∃ us, ts = us ++ f.blamed ∧ Viable P (us.map Token.symbol) ∧
    ∀ t ∈ f.blamed.head?, ∀ rest, F (us ++ t :: rest)

namespace Blames

variable {P Q : List Symbol → Prop} {F G : List Token → Prop} {ts : List Token} {f : Fault}

/-- The end is to blame. -/
theorem atEnd (hf : f.blamed = []) (hP : Viable P []) : Blames P F [] f :=
  ⟨[], by rw [hf]; rfl, hP, by simp [hf]⟩

/-- The first token is to blame. -/
theorem here {t : Token} (hf : f.blamed = t :: ts) (hP : Viable P [])
    (hF : ∀ rest, F (t :: rest)) : Blames P F (t :: ts) f := by
  refine ⟨[], by rw [hf]; rfl, hP, ?_⟩
  intro u hu rest
  obtain rfl : t = u := by simpa [hf] using hu
  exact hF rest

/-- Tokens were found before those in which the fault is. -/
theorem after (h : Blames P F ts f) (us : List Token)
    (hP : ∀ w, P w → Viable Q (us.map Token.symbol ++ w))
    (hF : ∀ ts', ts'.head? = ts.head? → F ts' → G (us ++ ts')) : Blames Q G (us ++ ts) f := by
  obtain ⟨vs, rfl, hv, hdoom⟩ := h
  refine ⟨us ++ vs, by rw [List.append_assoc], ?_, ?_⟩
  · rw [List.map_append]
    exact hv.trans hP
  · intro t ht rest
    have hhead : (vs ++ t :: rest).head? = (vs ++ f.blamed).head? := by
      rw [List.head?_append, List.head?_append, List.head?_cons, Option.mem_def.mp ht]
    rw [List.append_assoc]
    exact hF _ hhead (hdoom t ht rest)

/-- The fault is in the first part of a phrase. -/
theorem mono (h : Blames P F ts f) (hP : ∀ w, P w → Viable Q w)
    (hF : ∀ ts', ts'.head? = ts.head? → F ts' → G ts') : Blames Q G ts f :=
  h.after [] hP hF

/-- One token was passed before those in which the fault is. -/
theorem cons {t : Token} (h : Blames P F ts f) (hP : ∀ w, P w → Viable Q (t.symbol :: w))
    (hF : ∀ ts', F ts' → G (t :: ts')) : Blames Q G (t :: ts) f :=
  h.after [t] hP fun ts' _ => hF ts'

/-- The token was passed that begins the phrase. -/
theorem behind {t : Token} (h : Blames (fun w => P (t.symbol :: w)) F ts f)
    (hF : ∀ ts', F ts' → G (t :: ts')) : Blames P G (t :: ts) f :=
  h.cons (fun _ hw => .of hw) hF

end Blames

namespace Parser

theorem fillers_of_close {close : Kind} (h : close ∈ [.rightParen, .rightBracket]) :
    close ∈ fillers := by
  revert close
  decide

/-- A token of another kind than the one that had to come. -/
theorem expect_blames {kind : Kind} {ts : List Token} {f : Fault} (h : (expect kind ts).Stops f)
    (hk : kind ∈ fillers) :
    Blames (Single kind) (fun us => (expect kind us).Fails) ts f := by
  obtain ⟨hf, hne⟩ := expect_stops h
  have hviable : Viable (Single kind) [] := ⟨[kind], by simpa using hk, spelling kind, rfl⟩
  cases ts with
  | nil => exact .atEnd hf hviable
  | cons t ts => exact .here hf hviable fun rest => expect_fails (hne t rfl) rest

/-! ### What ends a phrase

Where an expression or a chain of arms was found, the token after it does not go on with it. -/

theorem EndsOperand.congr {ts us : List Token} (h : EndsOperand ts) (hhead : us.head? = ts.head?) :
    EndsOperand us := by
  unfold EndsOperand at h ⊢
  rwa [hhead]

theorem EndsExpression.congr {ts us : List Token} (h : EndsExpression ts)
    (hhead : us.head? = ts.head?) : EndsExpression us := by
  refine ⟨h.1.congr hhead, ?_⟩
  rw [hhead]
  exact h.2

theorem expression_ends {ts : List Token} {e : Expr String} {rest : List Token}
    (h : (expression ts).Finds e rest) : EndsExpression rest := by
  rw [expression, bind_finds] at h
  obtain ⟨l, mid, hm, hl, h⟩ := h
  have hends := operand_ends hl
  cases mid with
  | nil =>
    obtain ⟨-, rfl⟩ := found_finds.mp h
    exact ⟨hends, by simp⟩
  | cons t mid =>
    cases hop : t.kind.binaryOp? with
    | some op =>
      simp only [hop, within_finds, map_finds] at h
      obtain ⟨r, hr, -⟩ := h
      have hlt : mid.length < ts.length := by rw [List.length_cons] at hm; omega
      exact expression_ends hr
    | none =>
      have hi := (hends t rfl).2.2
      simp only [hop, if_neg hi] at h
      obtain ⟨-, rfl⟩ := found_finds.mp h
      exact ⟨hends, by simpa using hop⟩
termination_by ts.length

/-- An expression that was found is found again if the same token follows. -/
theorem expression_again {ts mid : List Token} {e : Expr String}
    (h : (expression ts).Finds e mid) :
    ∃ us, ts = us ++ mid ∧ Expression (us.map Token.symbol) e ∧
      ∀ mid', mid'.head? = mid.head? → (expression (us ++ mid')).Finds e mid' := by
  obtain ⟨us, hts, hus⟩ := expression_sound ts h
  refine ⟨us, hts, hus, ?_⟩
  intro mid' hhead
  exact expression_complete hus rfl ((expression_ends h).congr hhead)

/-! ### Expressions -/

theorem operand_viable : Viable (Word Operand) [] :=
  .fill [.nullWord] (by decide) ⟨.null, .chain (.atom .null)⟩

/-- An operand after a prefix operator has taken all calls and indices, so only it can stop. -/
theorem operand_stops_of_sign {op : UnaryOp} {ts : List Token} {f : Fault}
    (h : (operand ts).Stops f ∨ ∃ e mid, ∃ _ : mid.length < ts.length,
      (operand ts).Finds e mid ∧ (suffixes (.unary op e) mid).Stops f) : (operand ts).Stops f := by
  rcases h with h | ⟨e, mid, -, he, h⟩
  · exact h
  · exact absurd h (suffixes_of_ends (operand_ends he)).not_stops

mutual

theorem expression_blames : ∀ {ts : List Token} {f : Fault}, (expression ts).Stops f →
    Blames (Word Expression) (fun us => (expression us).Fails) ts f
  | ts, f, h => by
    rw [expression, bind_stops] at h
    rcases h with h | ⟨l, mid, hm, hl, h⟩
    · apply (operand_blames h).mono
      · rintro w ⟨e, he⟩
        exact .of ⟨e, .operand he⟩
      · intro us _ hf
        rw [expression]
        exact hf.bind
    · obtain ⟨us, hts, hus⟩ := operand_sound ts hl
      cases mid with
      | nil => exact absurd h found_stops
      | cons t mid =>
        cases hop : t.kind.binaryOp? with
        | none =>
          have hi := (operand_ends hl t rfl).2.2
          simp only [hop, if_neg hi] at h
          exact absurd h found_stops
        | some op =>
          simp only [hop, within_stops, map_stops] at h
          have hlt : mid.length < ts.length := by rw [List.length_cons] at hm; omega
          rw [hts, List.append_cons]
          apply (expression_blames h).after
          · rintro w ⟨r, hr⟩
            refine .of ⟨.binary op l r, ?_⟩
            have hmem := Kind.binaryOp?_eq_some_iff.mp hop
            simpa [Token.symbol] using Expression.binary (a := t.text) hus hmem hr
          · intro mid' _ hf
            have hl' := operand_complete hus rfl (endsOperand_of_binaryOp hop mid')
            rw [← List.append_cons, expression]
            apply hl'.then_fails
            simpa only [hop, within_fails, map_fails] using hf
termination_by ts => 4 * ts.length + 1

theorem operand_blames : ∀ {ts : List Token} {f : Fault}, (operand ts).Stops f →
    Blames (Word Operand) (fun us => (operand us).Fails) ts f
  | [], f, h => by
    rw [operand_nil] at h
    obtain rfl := fault_stops.mp h
    exact .atEnd rfl operand_viable
  | t :: ts, f, hstop => by
    have h := hstop
    rw [operand] at h
    split at h
    · next hk => exact parens_blames hk hstop
    · next hk =>
      simp only [bind_stops, within_stops] at h
      apply (operand_blames (operand_stops_of_sign h)).cons
      · rintro w ⟨e, he⟩
        refine .of ⟨.unary .negate e, ?_⟩
        rw [Token.symbol_eq hk]
        exact .negate he
      · intro us hf
        rw [operand]
        simp only [hk]
        exact hf.bind
    · next hk =>
      simp only [bind_stops, within_stops] at h
      apply (operand_blames (operand_stops_of_sign h)).cons
      · rintro w ⟨e, he⟩
        refine .of ⟨.unary .not e, ?_⟩
        rw [Token.symbol_eq hk]
        exact .not he
      · intro us hf
        rw [operand]
        simp only [hk]
        exact hf.bind
    · next hk => exact list_blames hk hstop
    · next hk =>
      refine word_blames (Token.symbol_eq hk ▸ .true) (within_stops.mp h) fun us hf => ?_
      rw [operand]
      simpa only [hk, within_fails] using hf
    · next hk =>
      refine word_blames (Token.symbol_eq hk ▸ .false) (within_stops.mp h) fun us hf => ?_
      rw [operand]
      simpa only [hk, within_fails] using hf
    · next hk =>
      refine word_blames (Token.symbol_eq hk ▸ .null) (within_stops.mp h) fun us hf => ?_
      rw [operand]
      simpa only [hk, within_fails] using hf
    · next hk =>
      refine word_blames (Token.symbol_eq hk ▸ .name) (within_stops.mp h) fun us hf => ?_
      rw [operand]
      simpa only [hk, within_fails] using hf
    · next hk =>
      simp only [bind_stops, within_stops, literal_finds] at h
      rcases h with h | ⟨s, mid, hm, ⟨hs, rfl⟩, h⟩
      · obtain ⟨hf, hfails⟩ := literal_stops h
        apply Blames.here hf operand_viable
        intro rest
        rw [operand]
        simp only [hk]
        exact (hfails rest).bind
      · have hbody := Literal.string_eq_ok_iff_body.mp hs
        refine word_blames (Token.symbol_eq hk ▸ .string hbody) h fun us hf => ?_
        rw [operand]
        simp only [hk]
        exact (literal_finds.mpr ⟨hs, rfl⟩).then_fails (within_fails.mpr hf)
    · next hk =>
      simp only [bind_stops, within_stops, literal_finds] at h
      rcases h with h | ⟨i, mid, hm, ⟨hi, rfl⟩, h⟩
      · obtain ⟨hf, hfails⟩ := literal_stops h
        apply Blames.here hf operand_viable
        intro rest
        rw [operand]
        simp only [hk]
        exact (hfails rest).bind
      · obtain ⟨n, hn, hle, hv⟩ := Literal.integer_eq_ok_iff.mp hi
        refine word_blames (Token.symbol_eq hk ▸ .integer hn hle hv) h fun us hf => ?_
        rw [operand]
        simp only [hk]
        exact (literal_finds.mpr ⟨hi, rfl⟩).then_fails (within_fails.mpr hf)
    · obtain rfl := fault_stops.mp h
      apply Blames.here (Fault.blamed_unexpected _ _ _) operand_viable
      intro rest
      rw [operand]
      split
      all_goals first | contradiction | exact fault_fails
termination_by ts => 4 * ts.length

/-- A token that is an atom was passed, and the fault is in what follows it. -/
theorem word_blames : ∀ {t : Token} {ts : List Token} {a : Expr String} {f : Fault},
    Atom [t.symbol] a → (suffixes a ts).Stops f →
    (∀ us, (suffixes a us).Fails → (operand (t :: us)).Fails) →
    Blames (Word Operand) (fun us => (operand us).Fails) (t :: ts) f
  | t, ts, a, f, ha, h, hF => by
    apply (suffixes_blames (.atom ha) h).cons _ hF
    rintro w ⟨e, he⟩
    exact .of ⟨e, .chain he⟩
termination_by _ ts => 4 * ts.length + 1

theorem parens_blames : ∀ {t : Token} {ts : List Token} {f : Fault}, t.kind = .leftParen →
    (operand (t :: ts)).Stops f → Blames (Word Operand) (fun us => (operand us).Fails) (t :: ts) f
  | t, ts, f, hk, h => by
    rw [operand] at h
    simp only [hk, bind_stops, within_stops, expect_finds] at h
    rcases h with h | ⟨e, mid, hm, he, h | ⟨c, mid, hm', ⟨rfl, hc⟩, h⟩⟩
    · apply (expression_blames h).cons
      · rintro w ⟨e, he⟩
        refine .fill [.rightParen] (by decide) ⟨e, .chain (.atom ?_)⟩
        rw [Token.symbol_eq hk]
        exact .parens he
      · intro us hf
        rw [operand]
        simp only [hk]
        exact hf.bind
    · obtain ⟨us, rfl, hus, hagain⟩ := expression_again he
      apply (expect_blames h (by decide)).after (t :: us)
      · rintro w ⟨b, rfl⟩
        refine .of ⟨e, .chain (.atom ?_)⟩
        rw [List.map_cons, Token.symbol_eq hk]
        exact .parens hus
      · intro mid' hhead hf
        rw [List.cons_append, operand]
        simp only [hk]
        exact (hagain mid' hhead).then_fails hf.bind
    · obtain ⟨us, hts, hus, hagain⟩ := expression_again he
      have ha := Atom.parens (a := t.text) (b := c.text) hus
      rw [← Token.symbol_eq hk, ← Token.symbol_eq hc] at ha
      have hshape : t :: ts = t :: us ++ [c] ++ mid := by simp [hts]
      rw [hshape]
      apply (suffixes_blames (.atom ha) h).after
      · rintro w ⟨e', he'⟩
        exact .of ⟨e', .chain (by simpa using he')⟩
      · intro mid' _ hf
        rw [List.append_assoc, List.cons_append, operand]
        simp only [hk]
        apply (hagain (c :: mid') rfl).then_fails
        exact (expect_cons hc mid').then_fails (within_fails.mpr hf)
termination_by _ ts => 4 * ts.length + 3

theorem list_blames : ∀ {t : Token} {ts : List Token} {f : Fault}, t.kind = .leftBracket →
    (operand (t :: ts)).Stops f → Blames (Word Operand) (fun us => (operand us).Fails) (t :: ts) f
  | t, ts, f, hk, h => by
    rw [operand] at h
    simp only [hk, bind_stops, within_stops] at h
    rcases h with h | ⟨es, mid, hm, hes, h⟩
    · apply (expressions_blames (by decide) h).cons
      · rintro w ⟨v, c, es, rfl, hes⟩
        refine .of ⟨.list es, .chain (.atom ?_)⟩
        rw [Token.symbol_eq hk]
        exact .list hes
      · intro us hf
        rw [operand]
        simp only [hk]
        exact hf.bind
    · obtain ⟨us, c, hts, hc, hus⟩ := expressions_sound .rightBracket ts hes
      have ha := Atom.list (a := t.text) (b := c.text) hus
      rw [← Token.symbol_eq hk, ← Token.symbol_eq hc] at ha
      have hshape : t :: ts = t :: us ++ [c] ++ mid := by simp [hts]
      rw [hshape]
      apply (suffixes_blames (.atom ha) h).after
      · rintro w ⟨e', he'⟩
        exact .of ⟨e', .chain (by simpa using he')⟩
      · intro mid' _ hf
        have hfound := items_complete hus mid' rfl (by decide) hc
        rw [List.append_assoc, List.cons_append, operand]
        simp only [hk]
        exact hfound.then_fails (within_fails.mpr hf)
termination_by _ ts => 4 * ts.length + 3

theorem suffixes_blames : ∀ {e : Expr String} {v : List Symbol} {ts : List Token} {f : Fault},
    Chain v e → (suffixes e ts).Stops f →
    Blames (fun w => Word Chain (v ++ w)) (fun us => (suffixes e us).Fails) ts f
  | e, v, [], f, hv, h => by
    rw [suffixes] at h
    exact absurd h found_stops
  | e, v, t :: ts, f, hv, h => by
    rw [suffixes] at h
    split at h
    · next hk =>
      simp only [bind_stops, within_stops] at h
      rcases h with h | ⟨es, mid, hm, hes, h⟩
      · apply (expressions_blames (by decide) h).cons
        · rintro w ⟨x, c, es, rfl, hes⟩
          have hc := Chain.call (a := t.text) (b := c) hv hes
          refine .of ⟨.call e es, ?_⟩
          rw [Token.symbol_eq hk]
          simpa using hc
        · intro us hf
          rw [suffixes]
          simp only [hk]
          exact hf.bind
      · obtain ⟨us, c, hts, hc, hus⟩ := expressions_sound .rightParen ts hes
        have ha := Chain.call (a := t.text) (b := c.text) hv hus
        rw [← Token.symbol_eq hk, ← Token.symbol_eq hc] at ha
        have hshape : t :: ts = t :: us ++ [c] ++ mid := by simp [hts]
        rw [hshape]
        apply (suffixes_blames ha h).after
        · rintro w ⟨e', he'⟩
          exact .of ⟨e', by simpa using he'⟩
        · intro mid' _ hf
          have hfound := items_complete hus mid' rfl (by decide) hc
          rw [List.append_assoc, List.cons_append, suffixes]
          simp only [hk]
          exact hfound.then_fails (within_fails.mpr hf)
    · next hk =>
      simp only [bind_stops, within_stops, expect_finds] at h
      rcases h with h | ⟨key, mid, hm, he, h | ⟨c, mid, hm', ⟨rfl, hc⟩, h⟩⟩
      · apply (expression_blames h).cons
        · rintro w ⟨key, hkey⟩
          have hc := Chain.index (a := t.text) (b := spelling .rightBracket) hv hkey
          refine .fill [.rightBracket] (by decide) ⟨.index e key, ?_⟩
          rw [Token.symbol_eq hk]
          simpa using hc
        · intro us hf
          rw [suffixes]
          simp only [hk]
          exact hf.bind
      · obtain ⟨us, rfl, hus, hagain⟩ := expression_again he
        apply (expect_blames h (by decide)).after (t :: us)
        · rintro w ⟨b, rfl⟩
          have hc := Chain.index (a := t.text) (b := b) hv hus
          refine .of ⟨.index e key, ?_⟩
          rw [List.map_cons, Token.symbol_eq hk]
          simpa using hc
        · intro mid' hhead hf
          rw [List.cons_append, suffixes]
          simp only [hk]
          exact (hagain mid' hhead).then_fails hf.bind
      · obtain ⟨us, hts, hus, hagain⟩ := expression_again he
        have ha := Chain.index (a := t.text) (b := c.text) hv hus
        rw [← Token.symbol_eq hk, ← Token.symbol_eq hc] at ha
        have hshape : t :: ts = t :: us ++ [c] ++ mid := by simp [hts]
        rw [hshape]
        apply (suffixes_blames ha h).after
        · rintro w ⟨e', he'⟩
          exact .of ⟨e', by simpa using he'⟩
        · intro mid' _ hf
          rw [List.append_assoc, List.cons_append, suffixes]
          simp only [hk]
          apply (hagain (c :: mid') rfl).then_fails
          exact (expect_cons hc mid').then_fails (within_fails.mpr hf)
    · next hk =>
      obtain rfl := fault_stops.mp h
      refine Blames.here rfl (.of ⟨e, by simpa using hv⟩) ?_
      intro rest
      rw [suffixes]
      simp only [hk]
      exact fault_fails
    · exact absurd h found_stops
termination_by _ _ ts => 4 * ts.length

theorem expressions_blames : ∀ {close : Kind} {ts : List Token} {f : Fault},
    close ∈ [.rightParen, .rightBracket] → (expressions close ts).Stops f →
    Blames (Closed Items close) (fun us => (expressions close us).Fails) ts f
  | close, [], f, hcl, h => by
    rw [expressions_nil] at h
    obtain rfl := fault_stops.mp h
    exact .atEnd rfl (Word.viable_closed ⟨[], .nil⟩ (fillers_of_close hcl))
  | close, t :: ts, f, hcl, h => by
    have hc := fillers_of_close hcl
    rw [expressions] at h
    by_cases ht : t.kind = close
    · rw [if_pos ht] at h
      exact absurd h found_stops
    · rw [if_neg ht, bind_stops] at h
      rcases h with h | ⟨e, mid, hm, he, h⟩
      · apply (expression_blames h).mono
        · rintro w ⟨e, he⟩
          exact Word.viable_closed ⟨[e], .last he⟩ hc
        · intro us hhead hf
          obtain ⟨us, rfl⟩ := List.head?_eq_some_iff.mp hhead
          rw [expressions, if_neg ht]
          exact hf.bind
      · obtain ⟨us, hts, hus, hagain⟩ := expression_again he
        obtain ⟨u, us, rfl, -⟩ := exists_of_begins hus.begins
        obtain rfl : t = u := (List.cons.inj hts).1
        have hviable : Viable (Closed Items close) ((t :: us).map Token.symbol) :=
          Word.viable_closed ⟨[e], .last hus⟩ hc
        cases mid with
        | nil =>
          obtain rfl := fault_stops.mp h
          exact ⟨t :: us, hts, hviable, by simp⟩
        | cons s mid =>
          have hlt : mid.length < ts.length := by simp only [List.length_cons] at hm; omega
          by_cases hs : s.kind = .comma
          · simp only [if_pos hs, within_stops, map_stops] at h
            rw [hts, List.append_cons]
            apply (expressions_blames hcl h).after
            · rintro w ⟨v, d, es, rfl, hes⟩
              have hi := Items.cons (a := s.text) hus hes
              refine .of ⟨_, d, e :: es, ?_, hi⟩
              simp [Token.symbol_eq hs]
            · intro mid' _ hf
              rw [← List.append_cons, List.cons_append, expressions, if_neg ht]
              apply (hagain (s :: mid') rfl).then_fails
              simpa only [if_pos hs, within_fails, map_fails] using hf
          · by_cases hs' : s.kind = close
            · simp only [if_neg hs, if_pos hs'] at h
              exact absurd h found_stops
            · simp only [if_neg hs, if_neg hs'] at h
              obtain rfl := fault_stops.mp h
              refine ⟨t :: us, by rw [Fault.blamed_unexpected, hts], hviable, ?_⟩
              intro u hu rest
              obtain rfl : s = u := by simpa [Fault.blamed_unexpected] using hu
              rw [List.cons_append, expressions, if_neg ht]
              apply (hagain (s :: rest) rfl).then_fails
              simp only [if_neg hs, if_neg hs']
              exact fault_fails
termination_by _ ts => 4 * ts.length + 2
decreasing_by all_goals (try simp only [List.length_cons] at *); omega

end

end Parser

end StackScript
