/-
# The parser blames the first token that cannot go on

What holds of the readers for expressions holds of those for statements and declarations too: the
token to blame is the first with which what was read so far cannot be completed. An `if` that was
found with no `else` has to be found again without one, which the token after it decides; so does
a whole statement (`statement_again`). The two places where arms follow one another are one reader,
`branch`.

Key definition: `Parser.branch`.
Key theorems: `Parser.statement_again`, `Parser.statement_blames`, `Parser.declaration_blames`,
`Parser.declarations_blames`.
-/
import StackScript.Proofs.Blame

namespace StackScript

open Reading Grammar

namespace Parser

/-! ### Statements -/

theorem expressionThen_blames {close : Kind} {ts : List Token} {f : Fault}
    (h : (expressionThen close ts).Stops f) (hc : close ∈ fillers) :
    Blames (Closed Expression close) (fun us => (expressionThen close us).Fails) ts f := by
  simp only [expressionThen, bind_stops, within_stops, map_stops] at h
  rcases h with h | ⟨e, mid, hm, he, h⟩
  · apply (expression_blames h).mono
    · intro w hw
      exact hw.viable_closed hc
    · intro us _ hf
      exact hf.bind
  · obtain ⟨us, rfl, hus, hagain⟩ := expression_again he
    apply (expect_blames h hc).after
    · rintro w ⟨b, rfl⟩
      exact .of ⟨_, b, e, rfl, hus⟩
    · intro mid' hhead hf
      apply (hagain mid' hhead).then_fails
      rwa [within_fails, map_fails]

theorem condition_blames {ts : List Token} {f : Fault} (h : (condition ts).Stops f) :
    Blames Condition (fun us => (condition us).Fails) ts f := by
  simp only [condition, bind_stops, within_stops, expect_finds] at h
  rcases h with h | ⟨o, mid, hm, ⟨rfl, ho⟩, h⟩
  · apply (expect_blames h (by decide)).mono
    · rintro w ⟨b, rfl⟩
      refine .fill [.nullWord, .rightParen] (by decide) ⟨b, _, rfl, ?_⟩
      exact ⟨[fill .nullWord], spelling .rightParen, .null, rfl, expression_null⟩
    · intro us _ hf
      exact hf.bind
  · apply (expressionThen_blames h (by decide)).cons
    · intro w hw
      exact .of ⟨o.text, w, by rw [Token.symbol_eq ho], hw⟩
    · intro us hf
      exact (expect_cons ho us).then_fails (within_fails.mpr hf)

theorem returned_blames {t : Token} (ht : t.kind = .returnWord) {ts : List Token} {f : Fault}
    (h : (returned ts).Stops f) :
    Blames (fun w => Word Statement (t.symbol :: w)) (fun us => (returned us).Fails) ts f := by
  rw [Token.symbol_eq ht]
  cases ts with
  | nil =>
    obtain rfl := fault_stops.mp h
    refine Blames.atEnd rfl ?_
    exact .fill [.semicolon] (by decide) ⟨.ret .null, .retNull⟩
  | cons u ts =>
    rw [returned] at h
    by_cases hu : u.kind = .semicolon
    · rw [if_pos hu] at h
      exact absurd h found_stops
    · rw [if_neg hu] at h
      apply (expressionThen_blames h (by decide)).mono
      · rintro w ⟨v, c, e, rfl, he⟩
        exact .of ⟨.ret e, .ret he⟩
      · intro us hhead hf
        obtain ⟨us, rfl⟩ := List.head?_eq_some_iff.mp hhead
        rwa [returned, if_neg hu]

theorem indices_blames : ∀ {ts : List Token} {f : Fault}, (indices ts).Stops f →
    Blames (Closed Indices .equal) (fun us => (indices us).Fails) ts f
  | [], f, h => by
    rw [indices] at h
    obtain rfl := fault_stops.mp h
    exact .atEnd rfl (Word.viable_closed ⟨[], .nil⟩ (by decide))
  | t :: ts, f, h => by
    rw [indices] at h
    split at h
    · exact absurd h found_stops
    · next hk =>
      simp only [bind_stops, within_stops, map_stops] at h
      rcases h with h | ⟨e, mid, hm, he, h⟩
      · apply (expressionThen_blames h (by decide)).cons
        · rintro w ⟨v, c, e, rfl, he⟩
          refine Word.viable_closed ⟨[e], ?_⟩ (by decide)
          rw [Token.symbol_eq hk]
          exact .cons he .nil
        · intro us hf
          rw [indices]
          simp only [hk]
          exact hf.bind
      · obtain ⟨us, c, hts, hc, hus⟩ := expressionThen_sound he
        have hshape : t :: ts = t :: us ++ [c] ++ mid := by simp [hts]
        rw [hshape]
        apply (indices_blames h).after
        · rintro w ⟨v, q, es, rfl, hes⟩
          have hi := Indices.cons (a := t.text) (b := c.text) hus hes
          refine .of ⟨_, q, e :: es, ?_, hi⟩
          simp [Token.symbol_eq hk, Token.symbol_eq hc]
        · intro mid' _ hf
          have hfound := expressionThen_complete (by decide) hus mid' rfl hc
          rw [List.append_assoc, List.cons_append, indices]
          simp only [hk]
          apply hfound.then_fails
          rwa [within_fails, map_fails]
    · next hq hb =>
      obtain rfl := fault_stops.mp h
      refine Blames.here (Fault.blamed_unexpected _ _ _) ?_ ?_
      · exact Word.viable_closed ⟨[], .nil⟩ (by decide)
      · intro rest
        rw [indices]
        split
        all_goals first | contradiction | exact fault_fails
termination_by ts => ts.length

theorem identifier_cons {t : Token} (h : t.kind = .identifier) (ts : List Token) :
    (identifier (t :: ts)).Finds t.name ts :=
  identifier_finds.mpr ⟨t, rfl, h, rfl⟩

theorem identifier_blames {ts : List Token} {f : Fault} (h : (identifier ts).Stops f) :
    Blames (Single .identifier) (fun us => (identifier us).Fails) ts f := by
  rw [identifier, map_stops] at h
  simp only [identifier, map_fails]
  exact expect_blames h (by decide)

theorem assignment_blames {t : Token} (ht : t.kind = .setWord) {ts : List Token} {f : Fault}
    (h : (assignment ts).Stops f) :
    Blames (fun w => Word Statement (t.symbol :: w)) (fun us => (assignment us).Fails) ts f := by
  rw [Token.symbol_eq ht]
  simp only [assignment, bind_stops, within_stops, map_stops, identifier_finds] at h
  rcases h with h | ⟨n, mid, -, ⟨i, rfl, hi, rfl⟩, h | ⟨es, rest, -, hes, h⟩⟩
  · apply (identifier_blames h).mono
    · rintro w ⟨n, rfl⟩
      refine .fill [.equal, .nullWord, .semicolon] (by decide)
        ⟨.assign (String.ofList n) [] .null, ?_⟩
      exact .assign .nil expression_null
    · intro us _ hf
      exact hf.bind
  · apply (indices_blames h).cons
    · rintro w ⟨v, q, es, rfl, hes⟩
      have hs := Statement.assign (a := t.text) (b := q) (c := spelling .semicolon) (n := i.text)
        hes expression_null
      refine .fill [.nullWord, .semicolon] (by decide) ⟨.assign (String.ofList i.text) es .null, ?_⟩
      rw [Token.symbol_eq hi]
      simpa using hs
    · intro us hf
      exact (identifier_cons hi us).then_fails hf.bind
  · obtain ⟨us, q, hmid, hq, hus⟩ := indices_sound mid hes
    have hshape : i :: mid = i :: us ++ [q] ++ rest := by simp [hmid]
    rw [hshape]
    apply (expressionThen_blames h (by decide)).after
    · rintro w ⟨v, c, e, rfl, he⟩
      have hs := Statement.assign (a := t.text) (b := q.text) (c := c) (n := i.text) hus he
      refine .of ⟨.assign (String.ofList i.text) es e, ?_⟩
      rw [List.map_append, List.map_cons, List.map_singleton, Token.symbol_eq hi,
        Token.symbol_eq hq]
      simpa using hs
    · intro rest' _ hf
      have hfound := indices_complete hus rest' rfl hq
      rw [List.append_assoc, List.cons_append]
      apply (identifier_cons hi _).then_fails
      apply hfound.then_fails
      rwa [within_fails, map_fails]

theorem binding_blames {t : Token} (ht : t.kind = .letWord) {ts : List Token} {f : Fault}
    (h : (binding ts).Stops f) :
    Blames (fun w => Word Statement (t.symbol :: w)) (fun us => (binding us).Fails) ts f := by
  rw [Token.symbol_eq ht]
  simp only [binding, bind_stops, within_stops, map_stops, identifier_finds, expect_finds] at h
  rcases h with h | ⟨n, mid, -, ⟨i, rfl, hi, rfl⟩, h | ⟨q, rest, -, ⟨rfl, hq⟩, h⟩⟩
  · apply (identifier_blames h).mono
    · rintro w ⟨n, rfl⟩
      refine .fill [.equal, .nullWord, .semicolon] (by decide)
        ⟨.declare (String.ofList n) .null, ?_⟩
      exact .declare expression_null
    · intro us _ hf
      exact hf.bind
  · apply (expect_blames h (by decide)).cons
    · rintro w ⟨q, rfl⟩
      refine .fill [.nullWord, .semicolon] (by decide) ⟨.declare (String.ofList i.text) .null, ?_⟩
      rw [Token.symbol_eq hi]
      exact .declare expression_null
    · intro us hf
      exact (identifier_cons hi us).then_fails hf.bind
  · apply (expressionThen_blames h (by decide)).after [i, q]
    · rintro w ⟨v, c, e, rfl, he⟩
      refine .of ⟨.declare (String.ofList i.text) e, ?_⟩
      simp only [List.map_cons, List.map_nil, Token.symbol_eq hi, Token.symbol_eq hq]
      exact .declare he
    · intro us _ hf
      apply (identifier_cons hi (q :: us)).then_fails
      apply (expect_cons hq us).then_fails
      rwa [within_fails, map_fails]

/-! ### What ends a statement -/

theorem arms_invalid {t : Token} (h : t.kind = .invalid) (ts : List Token) :
    (arms (t :: ts)).Fails := by
  rw [arms.eq_def]
  simp [h]

theorem EndsArm.congr {ts us : List Token} (h : EndsArm ts) (hhead : us.head? = ts.head?) :
    EndsArm us := by
  unfold EndsArm at h ⊢
  rwa [hhead]

/-- No `else` stands after a chain that could go on with one. -/
theorem arms_ends : ∀ {ts : List Token} {more : Arms String} {rest : List Token},
    (arms ts).Finds more rest → more.isOpen = true → EndsArm rest
  | [], more, rest, h, _ => by
    rw [arms] at h
    obtain ⟨-, rfl⟩ := found_finds.mp h
    simp [EndsArm]
  | [t], more, rest, h, _ => by
    rw [arms] at h
    split at h
    · exact absurd h fault_finds
    · exact absurd h fault_finds
    · next he hi =>
      obtain ⟨-, rfl⟩ := found_finds.mp h
      simpa [EndsArm] using ⟨he, hi⟩
  | t :: u :: ts, more, rest, h, hopen => by
    rw [arms] at h
    split at h
    · by_cases hu : u.kind = .ifWord
      · simp only [if_pos hu, bind_finds, within_finds, map_finds] at h
        obtain ⟨c, mid, hm, -, body, mid', hm', -, more, hmore, rfl⟩ := h
        exact arms_ends hmore hopen
      · simp only [if_neg hu, within_finds, map_finds] at h
        obtain ⟨body, -, rfl⟩ := h
        cases hopen
    · exact absurd h fault_finds
    · next he hi =>
      obtain ⟨-, rfl⟩ := found_finds.mp h
      simpa [EndsArm] using ⟨he, hi⟩
termination_by ts => ts.length
decreasing_by simp only [List.length_cons]; omega

theorem statement_ends {ts : List Token} {s : Stmt String} {rest : List Token}
    (h : (statement ts).Finds s rest) (hopen : s.isOpen = true) : EndsArm rest := by
  cases s with
  | choose more =>
    obtain ⟨us, rfl, hus⟩ := statement_sound ts h
    obtain ⟨t, us, rfl, ht⟩ : ∃ t vs, us = t :: vs ∧ t.kind = .ifWord := by
      generalize hw : us.map Token.symbol = w at hus
      cases hus
      obtain ⟨t, vs, rfl, ht, -⟩ := map_symbol_eq_cons.mp hw
      exact ⟨t, vs, rfl, ht⟩
    rw [List.cons_append, statement] at h
    simp only [ht, bind_finds, within_finds, map_finds, Stmt.choose.injEq] at h
    obtain ⟨c, mid, -, -, body, mid', -, -, more, hmore, rfl⟩ := h
    exact arms_ends hmore hopen
  | _ => cases hopen

/-- A statement that was found is found again if the same token follows. -/
theorem statement_again {ts mid : List Token} {s : Stmt String}
    (h : (statement ts).Finds s mid) :
    ∃ us, ts = us ++ mid ∧ Statement (us.map Token.symbol) s ∧
      ∀ mid', mid'.head? = mid.head? → (statement (us ++ mid')).Finds s mid' := by
  obtain ⟨us, hts, hus⟩ := statement_sound ts h
  refine ⟨us, hts, hus, ?_⟩
  intro mid' hhead
  exact statement_complete hus rfl fun hopen => (statement_ends h hopen).congr hhead

/-! ### Blocks and arms -/

/-- What follows an `if`: the arm, and the arms after it. -/
def branch (ts : List Token) : TokenReading ts.length (Arms String) :=
  (condition ts).bind fun c rest _ =>
  (block rest).bind fun body rest _ =>
  ((arms rest).map (.arm c body)).within

/-- The symbols of an arm and of the arms after it. -/
def Branch (w : List Symbol) : Prop :=
  ∃ a b v x y e body more, w = ⟨.leftParen, a⟩ :: v ++ ⟨.rightParen, b⟩ :: x ++ y ∧
    Expression v e ∧ Block x body ∧ Otherwise y more

mutual

theorem block_blames : ∀ {ts : List Token} {f : Fault}, (block ts).Stops f →
    Blames (Word Block) (fun us => (block us).Fails) ts f
  | ts, f, h => by
    simp only [block, bind_stops, within_stops, expect_finds] at h
    rcases h with h | ⟨o, mid, hm, ⟨rfl, ho⟩, h⟩
    · apply (expect_blames h (by decide)).mono
      · rintro w ⟨b, rfl⟩
        exact .fill [.rightBrace] (by decide) ⟨[], .braces .nil⟩
      · intro us _ hf
        rw [block]
        exact hf.bind
    · apply (statements_blames h).cons
      · rintro w ⟨v, c, ss, rfl, hss⟩
        refine .of ⟨ss, ?_⟩
        rw [Token.symbol_eq ho]
        exact .braces hss
      · intro us hf
        rw [block]
        exact (expect_cons ho us).then_fails (within_fails.mpr hf)
termination_by ts => 2 * ts.length

theorem statements_blames : ∀ {ts : List Token} {f : Fault}, (statements ts).Stops f →
    Blames (Closed Statements .rightBrace) (fun us => (statements us).Fails) ts f
  | [], f, h => by
    rw [statements] at h
    obtain rfl := fault_stops.mp h
    exact .atEnd rfl (Word.viable_closed ⟨[], .nil⟩ (by decide))
  | t :: ts, f, h => by
    rw [statements] at h
    by_cases ht : t.kind = .rightBrace
    · rw [if_pos ht] at h
      exact absurd h found_stops
    · rw [if_neg ht] at h
      simp only [bind_stops, within_stops, map_stops] at h
      rcases h with h | ⟨s, mid, hm, hs, h⟩
      · apply (statement_blames h).mono
        · rintro w ⟨s, hs⟩
          refine Word.viable_closed ⟨[s], ?_⟩ (by decide)
          simpa using Statements.cons hs .nil
        · intro us hhead hf
          obtain ⟨us, rfl⟩ := List.head?_eq_some_iff.mp hhead
          rw [statements, if_neg ht]
          exact hf.bind
      · have hle : mid.length ≤ ts.length := Nat.le_of_lt_succ hm
        obtain ⟨us, hts, hus, hagain⟩ := statement_again hs
        obtain ⟨u, us, rfl, -⟩ := exists_of_begins hus.begins
        obtain rfl : t = u := (List.cons.inj hts).1
        rw [hts]
        apply (statements_blames h).after
        · rintro w ⟨v, c, ss, rfl, hss⟩
          exact .of ⟨_, c, s :: ss, by rw [List.append_assoc], .cons hus hss⟩
        · intro mid' hhead hf
          rw [List.cons_append, statements, if_neg ht]
          apply (hagain mid' hhead).then_fails
          rwa [within_fails, map_fails]
termination_by ts => 2 * ts.length + 1

theorem statement_blames : ∀ {ts : List Token} {f : Fault}, (statement ts).Stops f →
    Blames (Word Statement) (fun us => (statement us).Fails) ts f
  | [], f, h => by
    rw [statement] at h
    obtain rfl := fault_stops.mp h
    refine Blames.atEnd rfl ?_
    exact .fill [.returnWord, .semicolon] (by decide) ⟨.ret .null, .retNull⟩
  | t :: ts, f, h => by
    rw [statement] at h
    split at h
    · next hk =>
      simp only [within_stops, map_stops] at h
      apply (returned_blames hk h).behind
      intro us hf
      rw [statement]
      simpa only [hk, within_fails, map_fails] using hf
    · next hk =>
      simp only [within_stops, map_stops] at h
      apply (expressionThen_blames h (by decide)).cons
      · rintro w ⟨v, c, e, rfl, he⟩
        refine .of ⟨.run e, ?_⟩
        rw [Token.symbol_eq hk]
        exact .run he
      · intro us hf
        rw [statement]
        simpa only [hk, within_fails, map_fails] using hf
    · next hk =>
      apply (binding_blames hk (within_stops.mp h)).behind
      intro us hf
      rw [statement]
      simpa only [hk, within_fails] using hf
    · next hk =>
      apply (assignment_blames hk (within_stops.mp h)).behind
      intro us hf
      rw [statement]
      simpa only [hk, within_fails] using hf
    · next hk =>
      simp only [bind_stops, within_stops, map_stops] at h
      rcases h with h | ⟨e, mid, hm, he, h⟩
      · apply (condition_blames h).cons
        · rintro w ⟨o, v, rfl, x, c, e, rfl, he⟩
          refine .fill [.leftBrace, .rightBrace] (by decide) ⟨.loop e [], ?_⟩
          have hs := Statement.loop (a := t.text) (b := o) (c := c) he block_empty
          rw [Token.symbol_eq hk]
          simpa using hs
        · intro us hf
          rw [statement]
          simp only [hk]
          exact hf.bind
      · obtain ⟨o, us, c, hts, ho, hc, hus⟩ := condition_sound he
        have hshape : t :: ts = t :: o :: us ++ [c] ++ mid := by simp [hts]
        rw [hshape]
        apply (block_blames h).after
        · rintro w ⟨body, hb⟩
          have hs := Statement.loop (a := t.text) (b := o.text) (c := c.text) hus hb
          refine .of ⟨.loop e body, ?_⟩
          simpa [Token.symbol_eq hk, Token.symbol_eq ho, Token.symbol_eq hc] using hs
        · intro mid' _ hf
          have hfound := condition_complete hus mid' ho rfl hc
          rw [List.append_assoc, List.cons_append, statement]
          simp only [hk]
          apply hfound.then_fails
          rwa [within_fails, map_fails]
    · next hk =>
      have hb : (branch ts).Stops f := by
        simpa only [branch, bind_stops, within_stops, map_stops] using h
      apply (branch_blames hb).cons
      · rintro w ⟨a, b, v, x, y, e, body, more, rfl, he, hbody, hmore⟩
        refine .of ⟨.choose (.arm e body more), ?_⟩
        rw [Token.symbol_eq hk]
        exact .choose he hbody hmore
      · intro us hf
        rw [statement]
        simpa only [hk, branch, bind_fails, within_fails, map_fails] using hf
    · obtain rfl := fault_stops.mp h
      refine Blames.here (Fault.blamed_unexpected _ _ _) ?_ ?_
      · exact .fill [.returnWord, .semicolon] (by decide) ⟨.ret .null, .retNull⟩
      · intro rest
        rw [statement]
        split
        all_goals first | contradiction | exact fault_fails
termination_by ts => 2 * ts.length

theorem branch_blames : ∀ {ts : List Token} {f : Fault}, (branch ts).Stops f →
    Blames Branch (fun us => (branch us).Fails) ts f
  | ts, f, h => by
    simp only [branch, bind_stops, within_stops, map_stops] at h
    rcases h with h | ⟨e, mid, hm, he, h | ⟨body, mid', hm', hb, h⟩⟩
    · apply (condition_blames h).mono
      · rintro w ⟨o, v, rfl, x, c, e, rfl, he⟩
        refine .fill [.leftBrace, .rightBrace] (by decide) ⟨o, c, x, _, [], e, [],
          .done, ?_, he, block_empty, .done⟩
        simp
      · intro us _ hf
        exact hf.bind
    · obtain ⟨o, us, c, hts, ho, hc, hus⟩ := condition_sound he
      have hshape : ts = o :: us ++ [c] ++ mid := by simp [hts]
      rw [hshape]
      apply (block_blames h).after
      · rintro w ⟨body, hbody⟩
        refine .of ⟨o.text, c.text, us.map Token.symbol, w, [], e, body, .done, ?_, hus, hbody,
          .done⟩
        simp [Token.symbol_eq ho, Token.symbol_eq hc]
      · intro mid' _ hf
        have hfound := condition_complete hus mid' ho rfl hc
        rw [List.append_assoc, List.cons_append]
        exact hfound.then_fails hf.bind
    · obtain ⟨o, us, c, hts, ho, hc, hus⟩ := condition_sound he
      obtain ⟨vs, hmid, hvs⟩ := block_sound mid hb
      have hshape : ts = o :: us ++ c :: vs ++ mid' := by simp [hts, hmid]
      rw [hshape]
      apply (arms_blames h).after
      · rintro w ⟨more, hmore⟩
        refine .of ⟨o.text, c.text, us.map Token.symbol, vs.map Token.symbol, w, e, body, more, ?_,
          hus, hvs, hmore⟩
        simp [Token.symbol_eq ho, Token.symbol_eq hc]
      · intro rest _ hf
        have hfound := condition_complete hus (vs ++ rest) ho rfl hc
        have hblock := block_complete hvs rest rfl
        rw [List.append_assoc, List.cons_append]
        apply hfound.then_fails
        apply hblock.then_fails
        rwa [within_fails, map_fails]
termination_by ts => 2 * ts.length + 1

theorem arms_blames : ∀ {ts : List Token} {f : Fault}, (arms ts).Stops f →
    Blames (Word Otherwise) (fun us => (arms us).Fails) ts f
  | [], f, h => by
    rw [arms] at h
    exact absurd h found_stops
  | [t], f, h => by
    rw [arms] at h
    split at h
    · next hk =>
      obtain rfl := fault_stops.mp h
      refine ⟨[t], rfl, ?_, by simp⟩
      refine .fill [.leftBrace, .rightBrace] (by decide) ⟨.otherwise [], ?_⟩
      rw [List.map_singleton, Token.symbol_eq hk]
      exact .otherwise block_empty
    · next hk =>
      obtain rfl := fault_stops.mp h
      exact .here rfl (.of ⟨.done, .done⟩) (arms_invalid hk)
    · exact absurd h found_stops
  | t :: u :: ts, f, h => by
    rw [arms] at h
    split at h
    · next hk =>
      by_cases hu : u.kind = .ifWord
      · have hb : (branch ts).Stops f := by
          simpa only [if_pos hu, branch, bind_stops, within_stops, map_stops] using h
        apply (branch_blames hb).after [t, u]
        · rintro w ⟨a, b, v, x, y, e, body, more, rfl, he, hbody, hmore⟩
          refine .of ⟨.arm e body more, ?_⟩
          simp only [List.map_cons, List.map_nil, Token.symbol_eq hk, Token.symbol_eq hu]
          exact .arm he hbody hmore
        · intro us _ hf
          rw [List.cons_append, List.cons_append, List.nil_append, arms]
          simpa only [hk, if_pos hu, branch, bind_fails, within_fails, map_fails] using hf
      · simp only [if_neg hu, within_stops, map_stops] at h
        -- what follows `else` is read as a block because its first token is no `if`, and it stays so
        apply (block_blames h).after [t]
        · rintro w ⟨body, hbody⟩
          refine .of ⟨.otherwise body, ?_⟩
          rw [List.map_singleton, Token.symbol_eq hk]
          exact .otherwise hbody
        · intro us hhead hf
          obtain ⟨us, rfl⟩ := List.head?_eq_some_iff.mp hhead
          rw [List.cons_append, List.nil_append, arms]
          simpa only [hk, if_neg hu, within_fails, map_fails] using hf
    · next hk =>
      obtain rfl := fault_stops.mp h
      exact .here rfl (.of ⟨.done, .done⟩) (arms_invalid hk)
    · exact absurd h found_stops
termination_by ts => 2 * ts.length
decreasing_by all_goals (try simp only [List.length_cons] at *); omega

end

/-! ### Declarations -/

theorem moreParameters_blames : ∀ {ts : List Token} {f : Fault}, (moreParameters ts).Stops f →
    Blames (Closed MoreParameters .rightParen) (fun us => (moreParameters us).Fails) ts f
  | [], f, h => by
    rw [moreParameters] at h
    obtain rfl := fault_stops.mp h
    exact .atEnd rfl (Word.viable_closed ⟨[], .nil⟩ (by decide))
  | t :: ts, f, h => by
    rw [moreParameters] at h
    split at h
    · exact absurd h found_stops
    · next hk =>
      simp only [bind_stops, within_stops, map_stops, identifier_finds] at h
      rcases h with h | ⟨n, mid, hm, ⟨i, rfl, hi, rfl⟩, h⟩
      · apply (identifier_blames h).cons
        · rintro w ⟨n, rfl⟩
          refine Word.viable_closed ⟨[String.ofList n], ?_⟩ (by decide)
          rw [Token.symbol_eq hk]
          exact .cons .nil
        · intro us hf
          rw [moreParameters]
          simp only [hk]
          exact hf.bind
      · apply (moreParameters_blames h).after [t, i]
        · rintro w ⟨v, c, ns, rfl, hns⟩
          refine .of ⟨t.symbol :: i.symbol :: v, c, String.ofList i.text :: ns, rfl, ?_⟩
          rw [Token.symbol_eq hk, Token.symbol_eq hi]
          exact .cons hns
        · intro us _ hf
          rw [List.cons_append, List.cons_append, List.nil_append, moreParameters]
          simp only [hk]
          apply (identifier_cons hi us).then_fails
          rwa [within_fails, map_fails]
    · obtain rfl := fault_stops.mp h
      refine Blames.here (Fault.blamed_unexpected _ _ _) ?_ ?_
      · exact Word.viable_closed ⟨[], .nil⟩ (by decide)
      · intro rest
        rw [moreParameters]
        split
        all_goals first | contradiction | exact fault_fails
termination_by ts => ts.length

theorem parameters_blames {ts : List Token} {f : Fault} (h : (parameters ts).Stops f) :
    Blames (Closed Parameters .rightParen) (fun us => (parameters us).Fails) ts f := by
  cases ts with
  | nil =>
    obtain rfl := fault_stops.mp h
    exact .atEnd rfl (Word.viable_closed ⟨[], .nil⟩ (by decide))
  | cons t ts =>
    rw [parameters] at h
    split at h
    · exact absurd h found_stops
    · next hk =>
      simp only [within_stops, map_stops] at h
      apply (moreParameters_blames h).cons
      · rintro w ⟨v, c, ns, rfl, hns⟩
        refine .of ⟨t.symbol :: v, c, String.ofList t.text :: ns, rfl, ?_⟩
        rw [Token.symbol_eq hk]
        exact .cons hns
      · intro us hf
        rw [parameters]
        simpa only [hk, within_fails, map_fails] using hf
    · obtain rfl := fault_stops.mp h
      refine Blames.here (Fault.blamed_unexpected _ _ _) ?_ ?_
      · exact Word.viable_closed ⟨[], .nil⟩ (by decide)
      · intro rest
        rw [parameters]
        split
        all_goals first | contradiction | exact fault_fails

theorem load_blames {t : Token} (ht : t.kind = .importWord) {ts : List Token} {f : Fault}
    (h : (load ts).Stops f) :
    Blames (fun w => Word Decl (t.symbol :: w)) (fun us => (load us).Fails) ts f := by
  rw [Token.symbol_eq ht]
  have hviable : Viable (fun w => Word Decl (⟨.importWord, t.text⟩ :: w)) [] :=
    .fill [.string, .semicolon] (by decide) ⟨.load "", .load .nil⟩
  simp only [load, bind_stops, within_stops, map_stops, expect_finds, literal_finds] at h
  rcases h with h | ⟨s, mid, -, ⟨rfl, hs⟩, h | ⟨path, rest, -, ⟨hp, rfl⟩, h⟩⟩
  · obtain ⟨hf, hk⟩ := expect_stops h
    cases ts with
    | nil => exact .atEnd hf hviable
    | cons u ts => exact .here hf hviable fun rest => (expect_fails (hk u rfl) rest).bind
  · obtain ⟨hf, hfails⟩ := literal_stops h
    apply Blames.here hf hviable
    intro rest
    exact (expect_cons hs rest).then_fails (hfails rest).bind
  · apply (expect_blames h (by decide)).cons
    · rintro w ⟨c, rfl⟩
      refine .of ⟨.load path, ?_⟩
      rw [Token.symbol_eq hs]
      exact .load (Literal.string_eq_ok_iff_body.mp hp)
    · intro us hf
      apply (expect_cons hs us).then_fails
      apply (literal_finds.mpr ⟨hp, rfl⟩).then_fails
      rwa [within_fails, map_fails]

theorem global_blames {t : Token} (ht : t.kind = .globalWord) {ts : List Token} {f : Fault}
    (h : (global ts).Stops f) :
    Blames (fun w => Word Decl (t.symbol :: w)) (fun us => (global us).Fails) ts f := by
  rw [Token.symbol_eq ht]
  simp only [global, bind_stops, within_stops, map_stops, identifier_finds] at h
  rcases h with h | ⟨n, mid, -, ⟨i, rfl, hi, rfl⟩, h⟩
  · apply (identifier_blames h).mono
    · rintro w ⟨n, rfl⟩
      exact .fill [.semicolon] (by decide) ⟨.global (String.ofList n), .global⟩
    · intro us _ hf
      exact hf.bind
  · apply (expect_blames h (by decide)).cons
    · rintro w ⟨c, rfl⟩
      refine .of ⟨.global (String.ofList i.text), ?_⟩
      rw [Token.symbol_eq hi]
      exact .global
    · intro us hf
      apply (identifier_cons hi us).then_fails
      rwa [within_fails, map_fails]

theorem function_blames {t : Token} (ht : t.kind = .functionWord) {ts : List Token} {f : Fault}
    (h : (function ts).Stops f) :
    Blames (fun w => Word Decl (t.symbol :: w)) (fun us => (function us).Fails) ts f := by
  rw [Token.symbol_eq ht]
  simp only [function, bind_stops, within_stops, map_stops, identifier_finds, expect_finds] at h
  rcases h with h | ⟨n, mid, -, ⟨i, rfl, hi, rfl⟩,
    h | ⟨o, mid, -, ⟨rfl, ho⟩, h | ⟨ps, rest, -, hps, h⟩⟩⟩
  · apply (identifier_blames h).mono
    · rintro w ⟨n, rfl⟩
      refine .fill [.leftParen, .rightParen, .leftBrace, .rightBrace] (by decide)
        ⟨.define ⟨String.ofList n, [], []⟩, ?_⟩
      exact .define .nil block_empty
    · intro us _ hf
      exact hf.bind
  · apply (expect_blames h (by decide)).cons
    · rintro w ⟨o, rfl⟩
      refine .fill [.rightParen, .leftBrace, .rightBrace] (by decide)
        ⟨.define ⟨String.ofList i.text, [], []⟩, ?_⟩
      rw [Token.symbol_eq hi]
      exact .define .nil block_empty
    · intro us hf
      exact (identifier_cons hi us).then_fails hf.bind
  · apply (parameters_blames h).after [i, o]
    · rintro w ⟨v, c, ps, rfl, hps⟩
      have hd := Decl.define (a := t.text) (b := o.text) (c := c) (n := i.text) hps block_empty
      refine .fill [.leftBrace, .rightBrace] (by decide)
        ⟨.define ⟨String.ofList i.text, ps, []⟩, ?_⟩
      simpa [Token.symbol_eq hi, Token.symbol_eq ho] using hd
    · intro us _ hf
      apply (identifier_cons hi (o :: us)).then_fails
      exact (expect_cons ho us).then_fails hf.bind
  · obtain ⟨us, c, hmid, hc, hus⟩ := parameters_sound hps
    have hshape : i :: o :: mid = i :: o :: us ++ [c] ++ rest := by simp [hmid]
    rw [hshape]
    apply (block_blames h).after
    · rintro w ⟨body, hb⟩
      have hd := Decl.define (a := t.text) (b := o.text) (c := c.text) (n := i.text) hus hb
      refine .of ⟨.define ⟨String.ofList i.text, ps, body⟩, ?_⟩
      simpa [Token.symbol_eq hi, Token.symbol_eq ho, Token.symbol_eq hc] using hd
    · intro rest' _ hf
      have hfound := parameters_complete hus rest' rfl hc
      rw [List.append_assoc, List.cons_append]
      apply (identifier_cons hi _).then_fails
      apply (expect_cons ho _).then_fails
      apply hfound.then_fails
      rwa [within_fails, map_fails]

theorem declaration_blames {t : Token} {ts : List Token} {f : Fault}
    (h : (declaration (t :: ts)).Stops f) :
    Blames (Word Decl) (fun us => (declaration us).Fails) (t :: ts) f := by
  rw [declaration] at h
  split at h
  · next hk =>
    apply (load_blames hk (within_stops.mp h)).behind
    intro us hf
    rw [declaration]
    simpa only [hk, within_fails] using hf
  · next hk =>
    apply (global_blames hk (within_stops.mp h)).behind
    intro us hf
    rw [declaration]
    simpa only [hk, within_fails] using hf
  · next hk =>
    simp only [within_stops, map_stops] at h
    apply (function_blames hk h).behind
    intro us hf
    rw [declaration]
    simpa only [hk, within_fails, map_fails] using hf
  · obtain rfl := fault_stops.mp h
    refine Blames.here (Fault.blamed_unexpected _ _ _) ?_ ?_
    · exact .fill [.globalWord, .identifier, .semicolon] (by decide) ⟨.global "x", .global⟩
    · intro rest
      rw [declaration]
      split
      all_goals first | contradiction | exact fault_fails

/-- Where reading declarations stops, the token to blame is the first with which no declarations
can go on. -/
theorem declarations_blames : ∀ {ts : List Token} {ds : List (Declaration String)} {f : Fault},
    declarations ts = (ds, some f) →
    Blames (Word Decls) (fun us => (declarations us).2.isSome = true) ts f
  | [], ds, f, h => by
    rw [declarations] at h
    simp at h
  | t :: ts, ds, f, h => by
    rw [declarations] at h
    split at h
    · next hd =>
      obtain rfl : _ = f := by simpa using (Prod.mk.inj h).2
      apply (declaration_blames hd).mono
      · rintro w ⟨d, hw⟩
        exact .of ⟨[d], by simpa using Decls.cons hw .nil⟩
      · rintro us hhead ⟨g, hg⟩
        obtain ⟨us, rfl⟩ := List.head?_eq_some_iff.mp hhead
        rw [declarations, hg]
        rfl
    · next d rest hr hd =>
      have hle : rest.length ≤ ts.length := Nat.le_of_lt_succ hr
      obtain ⟨us, hts, hus⟩ := declaration_sound ⟨hr, hd⟩
      have hrest : declarations rest = ((declarations rest).1, some f) :=
        Prod.ext rfl (Prod.mk.inj h).2
      rw [hts]
      apply (declarations_blames hrest).after
      · rintro w ⟨es, hw⟩
        exact .of ⟨d :: es, .cons hus hw⟩
      · intro rest' _ hf
        have hd : Decls (us.map Token.symbol) [d] := by simpa using Decls.cons hus .nil
        rw [declarations_append hd rfl rest']
        exact hf
termination_by ts => ts.length

end Parser

end StackScript
