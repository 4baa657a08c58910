/-
# Lowered code means what the tree means

The machine, run on the code of an expression, a statement or a function, does what the tree says:
from any stack and in any context. The code of an expression pushes its value. The code of a
statement leaves the stack as it was and goes on with the code after it if the statement finishes,
returns if it returns, from however many blocks, and stops if the host does. This is one induction
over the outcome of the statement.

Where the statement has no outcome the machine runs forever. Here the induction is on the steps of
a run that ends: a round of a loop takes at least one of them, so the run of the rounds after it is
shorter, and there is an outcome to be found.

Key definitions: `Leads`, `Ends`, `Simulates`.
Key theorems: `Expr.leads_lower`, `Stmt.Exec.ends`, `Stmt.exec_of_haltsBy`, `lower_simulates`.
-/
import StackScript.Proofs.Meaning
import StackScript.Proofs.Slots

namespace StackScript

open Machine

variable {V σ ε α β : Type} {H : Host V σ ε}

/-! ### Expressions -/

/-- The machine comes to where the computation leads, or stops for the same reason. -/
def Leads (H : Host V σ ε) (c : Config V σ) : Except ε (Config V σ) → Prop
  | .ok c' => Reaches H c c'
  | .error reason => Halts H c (.aborted reason)

theorem Leads.head {c c' : Config V σ} {r : Except ε (Config V σ)} (hs : step H c = .ok c')
    (h : Leads H c' r) : Leads H c r := by
  cases r with
  | ok c'' => exact Reaches.head hs h
  | error reason => exact Halts.head hs h

/-- One computation after the other. -/
theorem Leads.bind {m : Effect V σ ε α} {f : α → Effect V σ ε β} {s : Store V σ}
    {c : Config V σ} {mid : α × Store V σ → Config V σ} {last : β × Store V σ → Config V σ}
    (h₁ : Leads H c ((m s).map mid))
    (h₂ : ∀ a s', m s = .ok (a, s') → Leads H (mid (a, s')) ((f a s').map last)) :
    Leads H c (((m >>= f) s).map last) := by
  have hb : (m >>= f) s = (m s >>= fun p => f p.1 p.2) := rfl
  rw [hb]
  cases hm : m s with
  | error reason =>
    rw [hm] at h₁
    exact h₁
  | ok p =>
    obtain ⟨a, s'⟩ := p
    rw [hm] at h₁
    have h := h₂ a s' hm
    change Leads H c ((f a s').map last)
    cases hf : (f a s').map last with
    | ok c' =>
      rw [hf] at h
      exact Reaches.trans h₁ h
    | error reason =>
      rw [hf] at h
      exact Halts.of_reaches h₁ h

/-- A computation that is a step of the machine. -/
theorem leads_act {answer : σ → Except ε (α × σ)} {c : Config V σ} {k : List Instr}
    {stack : List (Item V)} {F : List Frame} {s : Store V σ} {next : α → List (Item V)}
    (h : step H c = Config.after ⟨k, stack, F, s⟩ (answer s.outer) next) :
    Leads H c ((Host.act answer s).map fun p => ⟨k, next p.1, F, p.2⟩) := by
  unfold Host.act
  cases ha : answer s.outer with
  | error reason =>
    rw [ha] at h
    exact Halts.of_step h
  | ok p =>
    rw [ha] at h
    exact Reaches.head h (.refl _)

theorem Ref.leads_load (n : Ref) (k : List Instr) (S : List (Item V)) (F : List Frame)
    (s : Store V σ) :
    Leads H ⟨n.load ++ k, S, F, s⟩ ((n.read H s).map fun p => ⟨k, .value p.1 :: S, F, p.2⟩) := by
  cases n with
  | slot i => exact Reaches.head (step_getSlot ..) (.refl _)
  | free name =>
    rw [Ref.read]
    exact .head (step_string ..) (leads_act (step_getFree ..))

theorem Ref.leads_store (n : Ref) (v : V) (k : List Instr) (S : List (Item V)) (F : List Frame)
    (s : Store V σ) :
    Leads H ⟨n.store ++ k, .value v :: S, F, s⟩ ((n.write H v s).map fun p => ⟨k, S, F, p.2⟩) := by
  cases n with
  | slot i => exact Reaches.head (step_setSlot ..) (.refl _)
  | free name =>
    rw [Ref.write]
    exact .head (step_string ..) (leads_act (step_setFree ..))

theorem Expr.length_of_evalAll (es : List (Expr Ref)) {s s' : Store V σ} {vs : List V}
    (h : Expr.evalAll H es s = .ok (vs, s')) : vs.length = es.length := by
  induction es generalizing s s' vs with
  | nil =>
    obtain ⟨rfl, -⟩ := Prod.mk.inj (Except.ok.inj h)
    rfl
  | cons e es ih =>
    rw [Expr.evalAll] at h
    obtain ⟨v, s₁, -, h⟩ := Effect.bind_eq_ok.mp h
    obtain ⟨ws, s₂, hws, h⟩ := Effect.bind_eq_ok.mp h
    obtain ⟨rfl, -⟩ := Prod.mk.inj (Except.ok.inj h)
    rw [List.length_cons, List.length_cons, ih hws]

/-- Code calls the function that an operator stands for. -/
theorem BinaryOp.routine_eq_hostName (op : BinaryOp) : op.routine = op.hostName := by
  cases op <;> rfl

theorem UnaryOp.routine_eq_hostName (op : UnaryOp) : op.routine = op.hostName := by
  cases op <;> rfl

mutual

/-- The code of an expression pushes its value. -/
theorem Expr.leads_lower : ∀ (e : Expr Ref) (k : List Instr) (S : List (Item V))
    (F : List Frame) (s : Store V σ),
    Leads H ⟨e.lower ++ k, S, F, s⟩ ((e.eval H s).map fun p => ⟨k, .value p.1 :: S, F, p.2⟩)
  | .null, k, S, F, s => Reaches.head (step_null ..) (.refl _)
  | .boolean value, k, S, F, s => Reaches.head (step_boolean ..) (.refl _)
  | .integer value, k, S, F, s => Reaches.head (step_integer ..) (.refl _)
  | .string value, k, S, F, s => Reaches.head (step_string ..) (.refl _)
  | .list elements, k, S, F, s => by
    rw [Expr.lower, Expr.eval, List.append_assoc]
    refine .bind (Expr.leads_lowerAll elements _ S F s) fun vs s₁ hvs => ?_
    rw [← Expr.length_of_evalAll elements hvs]
    exact leads_act (step_list ..)
  | .name n, k, S, F, s => n.leads_load k S F s
  | .binary op left right, k, S, F, s => by
    rw [Expr.lower, Expr.eval, ← op.routine_eq_hostName, List.append_assoc, List.append_assoc]
    refine .bind (left.leads_lower _ S F s) fun a s₁ _ => ?_
    refine .bind (right.leads_lower _ _ F s₁) fun b s₂ _ => ?_
    exact leads_act (step_callKnown H k S F s₂ op.routine_ne [a, b])
  | .unary op operand, k, S, F, s => by
    rw [Expr.lower, Expr.eval, ← op.routine_eq_hostName, List.append_assoc]
    refine .bind (operand.leads_lower _ S F s) fun a s₁ _ => ?_
    exact leads_act (step_callKnown H k S F s₁ op.routine_ne [a])
  | .index collection key, k, S, F, s => by
    rw [Expr.lower, Expr.eval, List.append_assoc, List.append_assoc]
    refine .bind (collection.leads_lower _ S F s) fun a s₁ _ => ?_
    refine .bind (key.leads_lower _ _ F s₁) fun b s₂ _ => ?_
    exact leads_act (step_callKnown H k S F s₂ (by decide) [a, b])
  | .call callee arguments, k, S, F, s => by
    rw [Expr.lower, Expr.eval, List.append_assoc, List.append_assoc]
    refine .bind (Expr.leads_lowerAll arguments _ S F s) fun vs s₁ hvs => ?_
    refine .bind (callee.leads_lower _ _ F s₁) fun f s₂ _ => ?_
    rw [← Expr.length_of_evalAll arguments hvs]
    exact leads_act (step_callUnknown ..)

theorem Expr.leads_lowerAll : ∀ (es : List (Expr Ref)) (k : List Instr) (S : List (Item V))
    (F : List Frame) (s : Store V σ),
    Leads H ⟨Expr.lowerAll es ++ k, S, F, s⟩
      ((Expr.evalAll H es s).map fun p => ⟨k, pushAll p.1 S, F, p.2⟩)
  | [], k, S, F, s => Reaches.refl _
  | e :: es, k, S, F, s => by
    rw [Expr.lowerAll, Expr.evalAll, List.append_assoc]
    refine .bind (e.leads_lower _ S F s) fun v s₁ _ => ?_
    refine .bind (Expr.leads_lowerAll es k _ F s₁) fun vs s₂ _ => ?_
    exact Reaches.refl _

end

/-- The code of a place pops the collection and the value. -/
theorem Expr.leads_lowerPlace (v : V) (k : List Instr) (S : List (Item V)) (F : List Frame) :
    ∀ (es : List (Expr Ref)) (e : Expr Ref) (c : V) (s : Store V σ),
    Leads H ⟨Expr.lowerPlace (e :: es) ++ k, .value c :: .value v :: S, F, s⟩
      ((Expr.storeAt H v c e es s).map fun p => ⟨k, S, F, p.2⟩)
  | [], e, c, s => by
    rw [Expr.lowerPlace, Expr.storeAt, List.append_assoc]
    refine .bind (e.leads_lower _ _ F s) fun key s₁ _ => ?_
    refine .bind (leads_act (step_setIndex ..)) fun _ s₂ _ => ?_
    exact Reaches.refl _
  | e' :: es, e, c, s => by
    have hl : Expr.lowerPlace (e :: e' :: es) ++ k =
        e.lower ++ .getIndex :: (Expr.lowerPlace (e' :: es) ++ k) := by
      simp [Expr.lowerPlace]
    rw [hl, Expr.storeAt]
    refine .bind (e.leads_lower _ _ F s) fun key s₁ _ => ?_
    refine .bind (leads_act (step_callKnown H _ _ F s₁ (by decide) [c, key])) fun c' s₂ _ => ?_
    exact Expr.leads_lowerPlace v k S F es e' c' s₂

theorem Ref.leads_assign (n : Ref) (es : List (Expr Ref)) (e : Expr Ref) (k : List Instr)
    (S : List (Item V)) (F : List Frame) (s : Store V σ) :
    Leads H ⟨e.lower ++ n.storeAt es ++ k, S, F, s⟩
      ((n.assign H es e s).map fun p => ⟨k, S, F, p.2⟩) := by
  unfold Ref.assign
  rw [List.append_assoc]
  refine .bind (e.leads_lower _ S F s) fun v s₁ _ => ?_
  cases es with
  | nil => exact n.leads_store v k S F s₁
  | cons e' es =>
    rw [Ref.storeAt, List.append_assoc]
    · refine .bind (n.leads_load _ _ F s₁) fun c s₂ _ => ?_
      exact Expr.leads_lowerPlace v k S F es e' c s₂
    · exact nofun

/-! ### From outcomes to runs -/

/-- The machine ends the code of a statement as the outcome says: before the code `k` after it,
with the same stack and frames, or for good. -/
def Ends (H : Host V σ ε) (c : Config V σ) (k : List Instr) (S : List (Item V))
    (F : List Frame) : Outcome V σ ε → Prop
  | .finished s => Reaches H c ⟨k, S, F, s⟩
  | .returned v s => Halts H c (.returned v s)
  | .aborted reason => Halts H c (.aborted reason)

section Ends

variable {c c' : Config V σ} {k : List Instr} {S : List (Item V)} {F : List Frame}
  {o : Outcome V σ ε}

theorem Ends.of_reaches (hr : Reaches H c c') (h : Ends H c' k S F o) : Ends H c k S F o := by
  cases o with
  | finished s => exact hr.trans h
  | returned v s => exact .of_reaches hr h
  | aborted reason => exact .of_reaches hr h

theorem Ends.head (hs : step H c = .ok c') (h : Ends H c' k S F o) : Ends H c k S F o :=
  .of_reaches (.head hs (.refl c')) h

/-- What leaves a statement leaves all that is around it. -/
theorem Ends.of_leaves {k' : List Instr} {S' : List (Item V)} {F' : List Frame}
    (h : Ends H c k S F o) (hl : o.Leaves) : Ends H c k' S' F' o := by
  cases o with
  | finished s => exact hl.elim
  | returned v s => exact h
  | aborted reason => exact h

/-- A block inside a conditional or a loop goes on with its frame. -/
theorem Ends.frame {f : Frame} {F' : List Frame} {k' : List Instr} (h : Ends H c [] S (f :: F) o)
    (hf : ∀ s, step H ⟨[], S, f :: F, s⟩ = .ok ⟨k', S, F', s⟩) : Ends H c k' S F' o := by
  cases o with
  | finished s => exact Reaches.trans h (.head (hf s) (.refl _))
  | returned v s => exact h
  | aborted reason => exact h

/-- The last step of a statement. -/
theorem Ends.of_leads {r : Except ε (α × Store V σ)} {mid : α × Store V σ → Config V σ}
    {next : α → Store V σ → Outcome V σ ε} (h : Leads H c (r.map mid))
    (hn : ∀ a s, Ends H (mid (a, s)) k S F (next a s)) : Ends H c k S F (.of r next) := by
  cases r with
  | error reason => exact h
  | ok p => exact .of_reaches h (hn p.1 p.2)

end Ends

/-- A condition that was evaluated. -/
theorem Expr.reaches_lower {e : Expr Ref} {s s' : Store V σ} {v : V}
    (he : e.eval H s = .ok (v, s')) (k : List Instr) (S : List (Item V)) (F : List Frame) :
    Reaches H ⟨e.lower ++ k, S, F, s⟩ ⟨k, .value v :: S, F, s'⟩ := by
  have h := e.leads_lower (H := H) k S F s
  rw [he] at h
  exact h

/-- A condition at which the host stopped the machine. -/
theorem Expr.halts_lower {e : Expr Ref} {s : Store V σ} {reason : ε}
    (he : e.eval H s = .error reason) (k : List Instr) (S : List (Item V)) (F : List Frame) :
    Halts H ⟨e.lower ++ k, S, F, s⟩ (.aborted reason) := by
  have h := e.leads_lower (H := H) k S F s
  rw [he] at h
  exact h

/-- The block of a loop. -/
def roundCode (e : Expr Ref) (body : List Instr) : List Instr := e.lower ++ .breakIf :: body

/-- The code of an arm, after its condition, chooses one of the two blocks. -/
theorem reaches_choose {yes no : List Instr} (hy : Nested Instr.isInner yes)
    (hn : Nested Instr.isInner no) (v : V) (k : List Instr) (S : List (Item V))
    (F : List Frame) (s : Store V σ) :
    Reaches H
      ⟨.startBlock :: (yes ++ .endBlock :: .startBlock :: (no ++ .endBlock :: .choose :: k)),
        .value v :: S, F, s⟩
      ⟨if H.truth v then yes else no, S, .resume k :: F, s⟩ := by
  refine .head (step_startBlock _ _ _ _ _ hy) ?_
  refine .head (step_startBlock _ _ _ _ _ hn) ?_
  exact .head (step_choose ..) (.refl _)

theorem Arms.lower_arm_append (e : Expr Ref) (yes no k : List Instr) :
    e.lower ++ .startBlock :: yes ++ .endBlock :: .startBlock :: no ++ [.endBlock, .choose] ++ k =
      e.lower ++ .startBlock ::
        (yes ++ .endBlock :: .startBlock :: (no ++ .endBlock :: .choose :: k)) := by
  simp

/-- The code of a loop begins its first round. -/
theorem reaches_round {e : Expr Ref} {body : List Instr} (hb : Nested Instr.isInner body)
    (k : List Instr) (S : List (Item V)) (F : List Frame) (s : Store V σ) :
    Reaches H ⟨.startBlock :: (e.lower ++ .breakIf :: body) ++ [.endBlock, .loop] ++ k, S, F, s⟩
      ⟨roundCode e body, S, .again (roundCode e body) k :: F, s⟩ := by
  have hr : Nested Instr.isInner (roundCode e body) :=
    e.structured_lower.nested.append (.plain rfl rfl hb)
  have hc : .startBlock :: (e.lower ++ .breakIf :: body) ++ [.endBlock, .loop] ++ k =
      .startBlock :: (roundCode e body ++ .endBlock :: .loop :: k) := by
    simp [roundCode]
  rw [hc]
  exact .head (step_startBlock _ _ _ _ _ hr) (.head (step_loop ..) (.refl _))

mutual

/-- The code of a statement does what the statement does. -/
theorem Stmt.Exec.ends : ∀ {t : Stmt Ref} {s : Store V σ} {o : Outcome V σ ε}, t.Exec H s o →
    ∀ {code : List Instr}, t.lower = .ok code →
    ∀ (k : List Instr) (S : List (Item V)) (F : List Frame), Ends H ⟨code ++ k, S, F, s⟩ k S F o
  | _, _, _, .choose h, _, hc, k, S, F => h.ends hc k S F
  | _, _, _, .loop h, _, hc, k, S, F => by
    obtain ⟨body, hb, rfl⟩ := Stmt.lower_loop_eq_ok.mp hc
    have hn := (Stmt.structured_lowerAll _ hb).nested
    exact .of_reaches (reaches_round hn k S F _) (h.ends hb k S F)
  | _, _, _, .ret (e := e), _, hc, k, S, F => by
    obtain rfl := Except.ok.inj hc
    rw [List.append_assoc]
    exact .of_leads (e.leads_lower _ S F _) fun v s => Halts.of_step (step_ret ..)
  | _, _, _, .assign (n := n) (i := i) (e := e), _, hc, k, S, F => by
    obtain rfl := Except.ok.inj hc
    exact .of_leads (n.leads_assign i e k S F _) fun _ s => Reaches.refl _
  | _, _, _, .declare (e := e), _, hc, k, S, F => by
    obtain rfl := Except.ok.inj hc
    rw [List.append_assoc]
    exact .of_leads (e.leads_lower _ S F _) fun v s => .head (step_setSlot ..) (Reaches.refl _)
  | _, _, _, .run (e := e), _, hc, k, S, F => by
    obtain rfl := Except.ok.inj hc
    rw [List.append_assoc]
    exact .of_leads (e.leads_lower _ S F _) fun v s => .head (step_drop ..) (Reaches.refl _)

theorem Arms.Exec.ends : ∀ {arms : Arms Ref} {s : Store V σ} {o : Outcome V σ ε},
    arms.Exec H s o → ∀ {code : List Instr}, arms.lower = .ok code →
    ∀ (k : List Instr) (S : List (Item V)) (F : List Frame), Ends H ⟨code ++ k, S, F, s⟩ k S F o
  | _, _, _, .done, _, hc, k, S, F => by
    obtain rfl := Except.ok.inj hc
    exact Reaches.refl _
  | _, _, _, .otherwise h, _, hc, k, S, F => h.ends hc k S F
  | _, _, _, .yes he hv h, _, hc, k, S, F => by
    obtain ⟨yes, no, hy, hn, rfl⟩ := Arms.lower_arm_eq_ok.mp hc
    have hch := reaches_choose (H := H) (Stmt.structured_lowerAll _ hy).nested
      (Arms.structured_lower _ hn).nested
    rw [Arms.lower_arm_append]
    refine .of_reaches ((Expr.reaches_lower he _ S F).trans (hch _ k S F _)) ?_
    rw [hv, if_pos rfl, ← List.append_nil yes]
    exact (h.ends hy [] S (.resume k :: F)).frame fun s => step_resume ..
  | _, _, _, .no he hv h, _, hc, k, S, F => by
    obtain ⟨yes, no, hy, hn, rfl⟩ := Arms.lower_arm_eq_ok.mp hc
    have hch := reaches_choose (H := H) (Stmt.structured_lowerAll _ hy).nested
      (Arms.structured_lower _ hn).nested
    rw [Arms.lower_arm_append]
    refine .of_reaches ((Expr.reaches_lower he _ S F).trans (hch _ k S F _)) ?_
    rw [hv, if_neg (by decide), ← List.append_nil no]
    exact (h.ends hn [] S (.resume k :: F)).frame fun s => step_resume ..
  | _, _, _, .abort he, _, hc, k, S, F => by
    obtain ⟨yes, no, hy, hn, rfl⟩ := Arms.lower_arm_eq_ok.mp hc
    rw [Arms.lower_arm_append]
    exact Expr.halts_lower he _ S F

/-- The rounds of a loop, from the beginning of one on. -/
theorem Rounds.ends : ∀ {e : Expr Ref} {body : List (Stmt Ref)} {s : Store V σ}
    {o : Outcome V σ ε}, Rounds H e body s o → ∀ {code : List Instr},
    Stmt.lowerAll body = .ok code →
    ∀ (k : List Instr) (S : List (Item V)) (F : List Frame),
      Ends H ⟨roundCode e code, S, .again (roundCode e code) k :: F, s⟩ k S F o
  | _, _, _, _, .stop he hv, _, hc, k, S, F => by
    refine .of_reaches (Expr.reaches_lower he _ S _) ?_
    exact .head (step_breakIf_false _ _ _ _ _ hv _ _) (Reaches.refl _)
  | e, _, _, _, .round he hv h h', code, hc, k, S, F => by
    have hb := h.ends hc [] S (.again (roundCode e code) k :: F)
    rw [List.append_nil] at hb
    refine .of_reaches (Expr.reaches_lower he _ S _) (.head (step_breakIf_true _ _ _ _ _ hv) ?_)
    exact .of_reaches (hb.trans (.head (step_again ..) (.refl _))) (h'.ends hc k S F)
  | e, _, _, _, .leave he hv h hl, code, hc, k, S, F => by
    have hb := h.ends hc [] S (.again (roundCode e code) k :: F)
    rw [List.append_nil] at hb
    refine .of_reaches (Expr.reaches_lower he _ S _) (.head (step_breakIf_true _ _ _ _ _ hv) ?_)
    exact hb.of_leaves hl
  | _, _, _, _, .abort he, _, hc, k, S, F => Expr.halts_lower he _ S _

theorem Stmt.ExecAll.ends : ∀ {ts : List (Stmt Ref)} {s : Store V σ} {o : Outcome V σ ε},
    Stmt.ExecAll H ts s o → ∀ {code : List Instr}, Stmt.lowerAll ts = .ok code →
    ∀ (k : List Instr) (S : List (Item V)) (F : List Frame), Ends H ⟨code ++ k, S, F, s⟩ k S F o
  | _, _, _, .nil, _, hc, k, S, F => by
    obtain rfl := Except.ok.inj hc
    exact Reaches.refl _
  | _, _, _, .next h h', _, hc, k, S, F => by
    obtain ⟨first, more, hf, hm, rfl⟩ := Stmt.lowerAll_cons_eq_ok.mp hc
    rw [List.append_assoc]
    exact .of_reaches (h.ends hf (more ++ k) S F) (h'.ends hm k S F)
  | _, _, _, .leave h hl, _, hc, k, S, F => by
    obtain ⟨first, more, hf, hm, rfl⟩ := Stmt.lowerAll_cons_eq_ok.mp hc
    rw [List.append_assoc]
    exact (h.ends hf (more ++ k) S F).of_leaves hl

end

/-! ### From runs to outcomes -/

/-- If a body has an outcome whenever its code comes to an end, then so have the rounds of a
loop. -/
theorem Rounds.exec_of_haltsBy {e : Expr Ref} {body : List (Stmt Ref)} {code : List Instr}
    (hc : Stmt.lowerAll body = .ok code)
    (hbody : ∀ {n : Nat} {k : List Instr} {S : List (Item V)} {F : List Frame} {s : Store V σ},
      HaltsBy H n ⟨code ++ k, S, F, s⟩ → ∃ o, Stmt.ExecAll H body s o)
    {n : Nat} {k : List Instr} {S : List (Item V)} {F : List Frame} {s : Store V σ}
    (h : HaltsBy H n ⟨roundCode e code, S, .again (roundCode e code) k :: F, s⟩) :
    ∃ o, Rounds H e body s o := by
  induction n using Nat.strongRecOn generalizing s with
  | ind n ih =>
    cases he : e.eval H s with
    | error reason => exact ⟨_, .abort he⟩
    | ok p =>
      obtain ⟨v, s₁⟩ := p
      cases hv : H.truth v with
      | false => exact ⟨_, .stop he hv⟩
      | true =>
        -- the round goes on with the body, and the run that is left is shorter
        obtain ⟨m₁, hm₁, h₁⟩ := h.of_reaches (Expr.reaches_lower he _ S _)
        obtain ⟨m₂, hm₂, h₂⟩ := h₁.of_step (step_breakIf_true _ _ _ _ _ hv)
        rw [← List.append_nil code] at h₂
        obtain ⟨o, ho⟩ := hbody h₂
        cases o with
        | returned w s₂ => exact ⟨_, .leave he hv ho trivial⟩
        | aborted reason => exact ⟨_, .leave he hv ho trivial⟩
        | finished s₂ =>
          obtain ⟨m₃, hm₃, h₃⟩ := h₂.of_reaches (ho.ends hc [] S _)
          obtain ⟨m₄, hm₄, h₄⟩ := h₃.of_step (step_again ..)
          rw [List.append_nil] at h₄
          obtain ⟨o, ho'⟩ := ih m₄ (by omega) h₄
          exact ⟨o, .round he hv ho ho'⟩

mutual

/-- A statement whose code comes to an end has an outcome. -/
theorem Stmt.exec_of_haltsBy : ∀ (t : Stmt Ref) {code : List Instr}, t.lower = .ok code →
    ∀ {n : Nat} {k : List Instr} {S : List (Item V)} {F : List Frame} {s : Store V σ},
      HaltsBy H n ⟨code ++ k, S, F, s⟩ → ∃ o, t.Exec H s o
  | .choose arms, _, hc, _, _, _, _, _, h => by
    obtain ⟨o, ho⟩ := arms.exec_of_haltsBy hc h
    exact ⟨o, .choose ho⟩
  | .loop e body, _, hc, _, _, _, _, _, h => by
    obtain ⟨code, hb, rfl⟩ := Stmt.lower_loop_eq_ok.mp hc
    obtain ⟨m, -, hm⟩ := h.of_reaches (reaches_round (Stmt.structured_lowerAll _ hb).nested _ _ _ _)
    obtain ⟨o, ho⟩ := Rounds.exec_of_haltsBy hb (Stmt.execAll_of_haltsBy body hb) hm
    exact ⟨o, .loop ho⟩
  | .ret e, _, _, _, _, _, _, _, _ => ⟨_, .ret⟩
  | .assign n i e, _, _, _, _, _, _, _, _ => ⟨_, .assign⟩
  | .declare (.slot _) e, _, _, _, _, _, _, _, _ => ⟨_, .declare⟩
  | .declare (.free _) _, _, hc, _, _, _, _, _, _ => nomatch hc
  | .run e, _, _, _, _, _, _, _, _ => ⟨_, .run⟩

theorem Arms.exec_of_haltsBy : ∀ (arms : Arms Ref) {code : List Instr}, arms.lower = .ok code →
    ∀ {n : Nat} {k : List Instr} {S : List (Item V)} {F : List Frame} {s : Store V σ},
      HaltsBy H n ⟨code ++ k, S, F, s⟩ → ∃ o, arms.Exec H s o
  | .done, _, _, _, _, _, _, _, _ => ⟨_, .done⟩
  | .otherwise body, _, hc, _, _, _, _, _, h => by
    obtain ⟨o, ho⟩ := Stmt.execAll_of_haltsBy body hc h
    exact ⟨o, .otherwise ho⟩
  | .arm e body rest, _, hc, _, k, S, F, s, h => by
    obtain ⟨yes, no, hy, hn, rfl⟩ := Arms.lower_arm_eq_ok.mp hc
    have hch := reaches_choose (H := H) (Stmt.structured_lowerAll _ hy).nested
      (Arms.structured_lower _ hn).nested
    rw [Arms.lower_arm_append] at h
    cases he : e.eval H s with
    | error reason => exact ⟨_, .abort he⟩
    | ok p =>
      obtain ⟨v, s'⟩ := p
      obtain ⟨m, -, hm⟩ := h.of_reaches ((Expr.reaches_lower he _ S F).trans (hch v k S F s'))
      cases hv : H.truth v with
      | true =>
        rw [hv, if_pos rfl, ← List.append_nil yes] at hm
        obtain ⟨o, ho⟩ := Stmt.execAll_of_haltsBy body hy hm
        exact ⟨o, .yes he hv ho⟩
      | false =>
        rw [hv, if_neg (by decide), ← List.append_nil no] at hm
        obtain ⟨o, ho⟩ := rest.exec_of_haltsBy hn hm
        exact ⟨o, .no he hv ho⟩

theorem Stmt.execAll_of_haltsBy : ∀ (ts : List (Stmt Ref)) {code : List Instr},
    Stmt.lowerAll ts = .ok code →
    ∀ {n : Nat} {k : List Instr} {S : List (Item V)} {F : List Frame} {s : Store V σ},
      HaltsBy H n ⟨code ++ k, S, F, s⟩ → ∃ o, Stmt.ExecAll H ts s o
  | [], _, _, _, _, _, _, _, _ => ⟨_, .nil⟩
  | t :: ts, _, hc, _, k, S, F, s, h => by
    obtain ⟨first, more, hf, hm, rfl⟩ := Stmt.lowerAll_cons_eq_ok.mp hc
    rw [List.append_assoc] at h
    obtain ⟨o, ho⟩ := t.exec_of_haltsBy hf h
    cases o with
    | returned v s' => exact ⟨_, .leave ho trivial⟩
    | aborted reason => exact ⟨_, .leave ho trivial⟩
    | finished s' =>
      obtain ⟨m, -, h'⟩ := h.of_reaches (ho.ends hf (more ++ k) S F)
      obtain ⟨o, ho'⟩ := Stmt.execAll_of_haltsBy ts hm h'
      exact ⟨o, .next ho ho'⟩

end

/-! ### Both ways -/

/-- How a run of code on its own ends, from a stack that it leaves as it was. -/
def Outcome.halt (S : List (Item V)) : Outcome V σ ε → Halt V σ ε
  | finished s => .fell S s
  | returned v s => .returned v s
  | aborted reason => .aborted reason

/-- The code does what the meaning says. In front of other code, on any stack and inside any
blocks it ends as each outcome says, and runs forever if there is no outcome. On its own it ends
in these ways only. -/
structure Simulates (H : Host V σ ε) (code : List Instr)
    (meaning : Store V σ → Outcome V σ ε → Prop) : Prop where
  ends : ∀ s o, meaning s o → ∀ k S F, Ends H ⟨code ++ k, S, F, s⟩ k S F o
  runsForever : ∀ s, (∀ o, ¬ meaning s o) → ∀ k S F, RunsForever H ⟨code ++ k, S, F, s⟩
  halts_iff : ∀ s S h, Halts H ⟨code, S, [], s⟩ h ↔ ∃ o, meaning s o ∧ h = o.halt S
  runsForever_iff : ∀ s S, RunsForever H ⟨code, S, [], s⟩ ↔ ∀ o, ¬ meaning s o

theorem Ends.halts {c : Config V σ} {S : List (Item V)} {o : Outcome V σ ε}
    (h : Ends H c [] S [] o) : Halts H c (o.halt S) := by
  cases o with
  | finished s => exact .of_reaches h (.of_step (step_fell ..))
  | returned v s => exact h
  | aborted reason => exact h

/-- It is enough that outcomes are met, and that there is one for each run that ends. -/
theorem Simulates.of_ends {code : List Instr} {meaning : Store V σ → Outcome V σ ε → Prop}
    (hends : ∀ s o, meaning s o → ∀ k S F, Ends H ⟨code ++ k, S, F, s⟩ k S F o)
    (hex : ∀ n k S F s, HaltsBy H n ⟨code ++ k, S, F, s⟩ → ∃ o, meaning s o) :
    Simulates H code meaning := by
  have halone : ∀ s o, meaning s o → ∀ S, Halts H ⟨code, S, [], s⟩ (o.halt S) := by
    intro s o ho S
    have h := (hends s o ho [] S []).halts
    rwa [List.append_nil] at h
  have hsome : ∀ n S s, HaltsBy H n ⟨code, S, [], s⟩ → ∃ o, meaning s o := by
    intro n S s h
    rw [← List.append_nil code] at h
    exact hex n [] S [] s h
  refine ⟨hends, ?_, ?_, ?_⟩
  · intro s hno k S F
    refine Machine.runsForever_iff.mpr fun n hn => ?_
    obtain ⟨o, ho⟩ := hex n k S F s hn
    exact hno o ho
  · intro s S h
    constructor
    · rintro ⟨n, hn⟩
      obtain ⟨o, ho⟩ := hsome n S s ⟨h, hn⟩
      exact ⟨o, ho, Halts.unique ⟨n, hn⟩ (halone s o ho S)⟩
    · rintro ⟨o, ho, rfl⟩
      exact halone s o ho S
  · intro s S
    rw [Machine.runsForever_iff]
    constructor
    · intro hn o ho
      obtain ⟨n, hn'⟩ := halone s o ho S
      exact hn n ⟨_, hn'⟩
    · intro hno n hn
      obtain ⟨o, ho⟩ := hsome n S s hn
      exact hno o ho

/-- What a function does after its statements ends it. -/
theorem ends_closing (entry : String) (f : FunctionDef Ref) (s : Store V σ) (k : List Instr)
    (S : List (Item V)) (F : List Frame) :
    Ends H ⟨closing entry f.name ++ k, S, F, s⟩ k S F (.of (f.finish H entry s) .returned) := by
  have hret : ∀ (S' : List (Item V)) (s' : Store V σ),
      Halts H ⟨.null :: .ret :: k, S', F, s'⟩ (.returned H.null s') := fun S' s' =>
    .head (step_null ..) (.of_step (step_ret ..))
  by_cases he : f.name = entry
  · simp only [closing, FunctionDef.finish, if_pos he]
    have hne : "exit" ≠ "==[]" := by decide
    have hcall := leads_act (step_callKnown H (.null :: .ret :: k) S F s hne [H.integer 0])
    refine .head (step_integer ..) ?_
    rw [Outcome.of_bind_pure]
    exact .of_leads hcall fun v s' => hret _ s'
  · simp only [closing, FunctionDef.finish, if_neg he]
    exact hret S s

theorem Stmt.simulates_lower {t : Stmt Ref} {code : List Instr} (hc : t.lower = .ok code) :
    Simulates H code (t.Exec H) :=
  .of_ends (fun _ _ h => h.ends hc) fun _ _ _ _ _ => t.exec_of_haltsBy hc

theorem Stmt.simulates_lowerAll {ts : List (Stmt Ref)} {code : List Instr}
    (hc : Stmt.lowerAll ts = .ok code) : Simulates H code (Stmt.ExecAll H ts) :=
  .of_ends (fun _ _ h => h.ends hc) fun _ _ _ _ _ => Stmt.execAll_of_haltsBy ts hc

theorem FunctionDef.simulates_lower {f : FunctionDef Ref} {body : List Instr} (entry : String)
    (hc : Stmt.lowerAll f.body = .ok body) :
    Simulates H (body ++ closing entry f.name) (f.Exec H entry) := by
  apply Simulates.of_ends
  · intro s o h k S F
    rw [List.append_assoc]
    cases h with
    | leave hb hl => exact (hb.ends hc _ S F).of_leaves hl
    | fall hb => exact .of_reaches (hb.ends hc _ S F) (ends_closing entry f _ k S F)
  · intro n k S F s h
    rw [List.append_assoc] at h
    obtain ⟨o, ho⟩ := Stmt.execAll_of_haltsBy f.body hc h
    cases o with
    | finished s' => exact ⟨_, .fall ho⟩
    | returned v s' => exact ⟨_, .leave ho trivial⟩
    | aborted reason => exact ⟨_, .leave ho trivial⟩

/-- Lowering keeps the meaning of expressions, statements, blocks and functions, for every host.
The code of an expression pushes its value. Statements whose `let`s have slots have code, which
simulates them. The code of a function pushes one block, which simulates the function, and defines
it. What was resolved has slots. -/
theorem lower_simulates (H : Host V σ ε) :
    (∀ (e : Expr Ref) k S F s, Leads H ⟨e.lower ++ k, S, F, s⟩
      ((e.eval H s).map fun p => ⟨k, .value p.1 :: S, F, p.2⟩)) ∧
    (∀ t : Stmt Ref, t.unslotted = [] →
      ∃ code, t.lower = .ok code ∧ Simulates H code (t.Exec H)) ∧
    (∀ ts, Stmt.unslottedAll ts = [] →
      ∃ code, Stmt.lowerAll ts = .ok code ∧ Simulates H code (Stmt.ExecAll H ts)) ∧
    (∀ entry (f : FunctionDef Ref), Stmt.unslottedAll f.body = [] →
      ∃ block, f.lower entry =
          .ok (.startBlock :: block ++ [.endBlock, .define f.name f.parameters.length]) ∧
        Nested Instr.isInner block ∧ Simulates H block (f.Exec H entry)) ∧
    ∀ f : FunctionDef String, Stmt.unslottedAll f.resolve.value.body = [] := by
  refine ⟨Expr.leads_lower, ?_, ?_, ?_, fun f => Stmt.unslottedAll_resolveAll f.body _⟩
  · intro t ht
    obtain ⟨code, hc⟩ := t.lower_of_unslotted ht
    exact ⟨code, hc, Stmt.simulates_lower hc⟩
  · intro ts hts
    obtain ⟨code, hc⟩ := Stmt.lowerAll_of_unslotted ts hts
    exact ⟨code, hc, Stmt.simulates_lowerAll hc⟩
  · intro entry f hf
    obtain ⟨body, hb⟩ := Stmt.lowerAll_of_unslotted f.body hf
    refine ⟨_, FunctionDef.lower_eq_ok.mpr ⟨body, hb, rfl⟩, ?_,
      FunctionDef.simulates_lower entry hb⟩
    exact ((Stmt.structured_lowerAll _ hb).append (structured_closing entry f.name)).nested

end StackScript
