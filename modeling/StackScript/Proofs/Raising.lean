/-
# Back from code to trees

The flat code of a function still holds all of its tree, but for how chains of conditionals were
written. It is read from left to right with a stack on which trees lie in place of values: an
operation takes the trees of its operands and pushes one that has them as parts, and an
instruction that leaves nothing behind ends a statement. A start mark opens a block with a stack
and statements of its own, and the end mark makes it an entry of the stack around it. A break can
only be the test of a loop, so its condition is kept beside the statements of the block.

Two instructions do not say on their own what they come from. A text may be a string or a name
that is looked up next: it is pushed as a string and turned into a name then. A slot may be set by
a `let` or by an assignment: the `let` is the one to set the next slot that was not set so far.

So different programs have different code, unless they differ in how chains of conditionals are
written (`lower_eq_iff_desugar_eq`).

Key definitions: `Raise.Item`, `Raise.State`, `Raise.exec`, `Raise.run`.
Key theorems: `Expr.run_lower`, `Stmt.run_lower`, `Declaration.desugar_eq_of_lowerAll`,
`lower_eq_iff_desugar_eq`.
-/
import StackScript.Compiler
import StackScript.Proofs.Desugar
import StackScript.Proofs.Slots

namespace StackScript

/-! ### Operators and places -/

/-- The operator with a known function. -/
def BinaryOp.ofRoutine? (routine : String) : Option BinaryOp :=
  [.equal, .notEqual, .greater, .greaterEqual, .less, .lessEqual, .and, .or, .add, .subtract,
    .multiply, .divide, .remainder].find? (·.routine = routine)

/-- The operator with a known function. -/
def UnaryOp.ofRoutine? (routine : String) : Option UnaryOp :=
  [.negate, .not].find? (·.routine = routine)

theorem BinaryOp.ofRoutine?_routine (op : BinaryOp) : ofRoutine? op.routine = some op := by
  cases op <;> decide

theorem UnaryOp.ofRoutine?_routine (op : UnaryOp) : ofRoutine? op.routine = some op := by
  cases op <;> decide

/-- The name that a chain of indices starts from, and the indices. -/
def Expr.place? : Expr Ref → Option (Ref × List (Expr Ref))
  | .name n => some (n, [])
  | .index collection key => collection.place?.map fun p => (p.1, p.2 ++ [key])
  | _ => none

namespace Raise

/-! ### Reading code -/

/-- What lies on the stack. -/
inductive Item where
  | value (tree : Expr Ref)
  /-- A block, with the condition of the break in it. -/
  | block (test? : Option (Expr Ref)) (body : List (Stmt Ref))

/-- The tree of a value. -/
def Item.tree? : Item → Option (Expr Ref)
  | value e => some e
  | block _ _ => none

/-- A block that has begun: its part of the stack, the condition of the break in it, and its
statements so far. -/
structure Frame where
  stack : List Item
  test? : Option (Expr Ref)
  body : List (Stmt Ref)

/-- The block that is read, those around it, and the next slot for a `let`. -/
structure State where
  next : Nat
  frame : Frame
  outer : List Frame

namespace State

/-- The state with another stack. -/
def stacked (s : State) (stack : List Item) : State :=
  { s with frame := { s.frame with stack } }

/-- The state with one more statement, and another stack. -/
def said (s : State) (statement : Stmt Ref) (stack : List Item) : State :=
  { s with frame := { s.frame with stack, body := s.frame.body ++ [statement] } }

end State

/-- The trees of the last `n` values, the last one at the end, and the stack below them. -/
def popTrees (n : Nat) (stack : List Item) : Option (List (Expr Ref) × List Item) :=
  ((stack.take n).reverse.mapM Item.tree?).map fun es => (es, stack.drop n)

/-- Reads one instruction. -/
def exec (s : State) (i : Instr) : Option State :=
  match i, s.frame.stack with
  | .null, stack => some (s.stacked (.value .null :: stack))
  | .boolean b, stack => some (s.stacked (.value (.boolean b) :: stack))
  | .integer n, stack => some (s.stacked (.value (.integer n) :: stack))
  | .string t, stack => some (s.stacked (.value (.string t) :: stack))
  | .getSlot k, stack => some (s.stacked (.value (.name (.slot k)) :: stack))
  | .getFree, .value (.string n) :: stack =>
    some (s.stacked (.value (.name (.free n)) :: stack))
  | .list count, stack =>
    (popTrees count stack).map fun p => s.stacked (.value (.list p.1) :: p.2)
  | .callUnknown arity, .value callee :: stack =>
    (popTrees arity stack).map fun p => s.stacked (.value (.call callee p.1) :: p.2)
  | .callKnown routine 1, .value operand :: stack =>
    (UnaryOp.ofRoutine? routine).map fun op => s.stacked (.value (.unary op operand) :: stack)
  | .callKnown routine 2, .value right :: .value left :: stack =>
    if routine = "~[]" then some (s.stacked (.value (.index left right) :: stack))
    else (BinaryOp.ofRoutine? routine).map fun op =>
      s.stacked (.value (.binary op left right) :: stack)
  | .callKnown _ 3, .value last :: .value place :: .value v :: stack =>
    place.place?.map fun p => s.said (.assign p.1 (p.2 ++ [last]) v) stack
  | .setSlot k, .value v :: stack =>
    if k = s.next then some { s.said (.declare (.slot k) v) stack with next := k + 1 }
    else some (s.said (.assign (.slot k) [] v) stack)
  | .setFree, .value (.string n) :: .value v :: stack =>
    some (s.said (.assign (.free n) [] v) stack)
  | .drop, .value v :: stack => some (s.said (.run v) stack)
  | .ret, .value v :: stack => some (s.said (.ret v) stack)
  | .startBlock, _ => some { s with frame := ⟨[], none, []⟩, outer := s.frame :: s.outer }
  | .endBlock, _ =>
    match s.outer with
    | [] => none
    | around :: outer =>
      some { s with
        frame := { around with stack := .block s.frame.test? s.frame.body :: around.stack }
        outer }
  | .breakIf, .value c :: stack =>
    some { s with frame := { s.frame with stack, test? := some c } }
  | .choose, .block _ no :: .block _ yes :: .value c :: stack =>
    some (s.said (.choose (.arm c yes (.otherwise no))) stack)
  | .loop, .block (some c) body :: stack => some (s.said (.loop c body) stack)
  | _, _ => none

/-- Reads code. -/
def run (s : State) : List Instr → Option State
  | [] => some s
  | i :: code => (exec s i).bind fun s => run s code

theorem run_append (a b : List Instr) (s : State) :
    run s (a ++ b) = (run s a).bind fun s => run s b := by
  induction a generalizing s with
  | nil => rfl
  | cons i a ih =>
    rw [List.cons_append, run, run]
    cases exec s i with
    | none => rfl
    | some s' => exact ih s'

/-- Code that is read after other code was. -/
theorem run_append_of {a b : List Instr} {s s' : State} (h : run s a = some s') :
    run s (a ++ b) = run s' b := by
  rw [run_append, h, Option.bind_some]

theorem run_single (s : State) (i : Instr) : run s [i] = exec s i := by
  rw [run]
  cases exec s i <;> rfl

theorem run_cons_of {i : Instr} {code : List Instr} {s s' : State} (h : exec s i = some s') :
    run s (i :: code) = run s' code := by
  rw [run, h, Option.bind_some]

theorem popTrees_map (es : List (Expr Ref)) (stack : List Item) :
    popTrees es.length ((es.map .value).reverse ++ stack) = some (es, stack) := by
  have hlen : (es.map Item.value).reverse.length = es.length := by simp
  have htrees : (es.map Item.value).mapM Item.tree? = some es := by
    induction es with
    | nil => rfl
    | cons e es ih => simp [List.mapM_cons, Item.tree?, ih (by simp)]
  rw [popTrees, List.take_left' hlen, List.drop_left' hlen, List.reverse_reverse, htrees]
  rfl

section Steps

/-! ### What each instruction is read as -/

variable (n : Nat) (E : List Item) (t : Option (Expr Ref)) (B : List (Stmt Ref)) (O : List Frame)

theorem exec_list (es : List (Expr Ref)) :
    exec ⟨n, ⟨(es.map .value).reverse ++ E, t, B⟩, O⟩ (.list es.length) =
      some ⟨n, ⟨.value (.list es) :: E, t, B⟩, O⟩ := by
  change (popTrees es.length _).map _ = _
  rw [popTrees_map]
  rfl

theorem exec_callUnknown (callee : Expr Ref) (es : List (Expr Ref)) :
    exec ⟨n, ⟨.value callee :: ((es.map .value).reverse ++ E), t, B⟩, O⟩
        (.callUnknown es.length) =
      some ⟨n, ⟨.value (.call callee es) :: E, t, B⟩, O⟩ := by
  change (popTrees es.length _).map _ = _
  rw [popTrees_map]
  rfl

theorem exec_unary (op : UnaryOp) (e : Expr Ref) :
    exec ⟨n, ⟨.value e :: E, t, B⟩, O⟩ (.callKnown op.routine 1) =
      some ⟨n, ⟨.value (.unary op e) :: E, t, B⟩, O⟩ := by
  change (UnaryOp.ofRoutine? op.routine).map _ = _
  rw [op.ofRoutine?_routine]
  rfl

theorem exec_binary (op : BinaryOp) (left right : Expr Ref) :
    exec ⟨n, ⟨.value right :: .value left :: E, t, B⟩, O⟩ (.callKnown op.routine 2) =
      some ⟨n, ⟨.value (.binary op left right) :: E, t, B⟩, O⟩ := by
  have hne : op.routine ≠ "~[]" := by cases op <;> decide
  change (if op.routine = "~[]" then _ else (BinaryOp.ofRoutine? op.routine).map _) = _
  rw [if_neg hne, op.ofRoutine?_routine]
  rfl

theorem exec_getIndex (collection key : Expr Ref) :
    exec ⟨n, ⟨.value key :: .value collection :: E, t, B⟩, O⟩ .getIndex =
      some ⟨n, ⟨.value (.index collection key) :: E, t, B⟩, O⟩ := rfl

theorem exec_setIndex {place last v : Expr Ref} {target : Ref} {indices : List (Expr Ref)}
    (h : place.place? = some (target, indices)) :
    exec ⟨n, ⟨.value last :: .value place :: .value v :: E, t, B⟩, O⟩ .setIndex =
      some ⟨n, ⟨E, t, B ++ [.assign target (indices ++ [last]) v]⟩, O⟩ := by
  change place.place?.map _ = _
  rw [h]
  rfl

theorem exec_breakIf (c : Expr Ref) : exec ⟨n, ⟨.value c :: E, t, B⟩, O⟩ .breakIf =
    some ⟨n, ⟨E, some c, B⟩, O⟩ := rfl

/-- A `let` sets the next slot. -/
theorem exec_setSlot_next (v : Expr Ref) :
    exec ⟨n, ⟨.value v :: E, t, B⟩, O⟩ (.setSlot n) =
      some ⟨n + 1, ⟨E, t, B ++ [.declare (.slot n) v]⟩, O⟩ :=
  if_pos rfl

/-- An assignment sets a slot that was set before. -/
theorem exec_setSlot_of_lt {k : Nat} (h : k < n) (v : Expr Ref) :
    exec ⟨n, ⟨.value v :: E, t, B⟩, O⟩ (.setSlot k) =
      some ⟨n, ⟨E, t, B ++ [.assign (.slot k) [] v]⟩, O⟩ :=
  if_neg (Nat.ne_of_lt h)

/-- A block becomes an entry of the stack around it. -/
theorem run_block {n n' : Nat} {E : List Item} {t test? : Option (Expr Ref)}
    {B body : List (Stmt Ref)} {O : List Frame} {code k : List Instr}
    (h : run ⟨n, ⟨[], none, []⟩, ⟨E, t, B⟩ :: O⟩ code =
      some ⟨n', ⟨[], test?, body⟩, ⟨E, t, B⟩ :: O⟩) :
    run ⟨n, ⟨E, t, B⟩, O⟩ (.startBlock :: (code ++ .endBlock :: k)) =
      run ⟨n', ⟨.block test? body :: E, t, B⟩, O⟩ k := by
  have hstart : exec ⟨n, ⟨E, t, B⟩, O⟩ .startBlock =
      some ⟨n, ⟨[], none, []⟩, ⟨E, t, B⟩ :: O⟩ := rfl
  rw [run_cons_of hstart, run_append_of h]
  exact run_cons_of rfl

end Steps

end Raise

open Raise (run run_append_of run_cons_of run_single run_block Item Frame)

/-! ### Expressions -/

section Expressions

variable (n : Nat) (t : Option (Expr Ref)) (B : List (Stmt Ref)) (O : List Frame)

theorem Ref.run_load (r : Ref) (E : List Item) :
    run ⟨n, ⟨E, t, B⟩, O⟩ r.load = some ⟨n, ⟨.value (.name r) :: E, t, B⟩, O⟩ := by
  cases r <;> rfl

mutual

/-- The code of an expression pushes the expression. -/
theorem Expr.run_lower : ∀ (e : Expr Ref) (E : List Item),
    run ⟨n, ⟨E, t, B⟩, O⟩ e.lower = some ⟨n, ⟨.value e :: E, t, B⟩, O⟩
  | .null, _ => rfl
  | .boolean _, _ => rfl
  | .integer _, _ => rfl
  | .string _, _ => rfl
  | .name r, E => r.run_load n t B O E
  | .list elements, E => by
    rw [Expr.lower, run_append_of (Expr.run_lowerAll elements E), run_single]
    exact Raise.exec_list n E t B O elements
  | .binary op left right, E => by
    rw [Expr.lower, List.append_assoc, run_append_of (left.run_lower E),
      run_append_of (right.run_lower _), run_single]
    exact Raise.exec_binary n E t B O op left right
  | .unary op operand, E => by
    rw [Expr.lower, run_append_of (operand.run_lower E), run_single]
    exact Raise.exec_unary n E t B O op operand
  | .index collection key, E => by
    rw [Expr.lower, List.append_assoc, run_append_of (collection.run_lower E),
      run_append_of (key.run_lower _), run_single]
    exact Raise.exec_getIndex n E t B O collection key
  | .call callee arguments, E => by
    rw [Expr.lower, List.append_assoc, run_append_of (Expr.run_lowerAll arguments E),
      run_append_of (callee.run_lower _), run_single]
    exact Raise.exec_callUnknown n E t B O callee arguments

theorem Expr.run_lowerAll : ∀ (es : List (Expr Ref)) (E : List Item),
    run ⟨n, ⟨E, t, B⟩, O⟩ (Expr.lowerAll es) =
      some ⟨n, ⟨(es.map .value).reverse ++ E, t, B⟩, O⟩
  | [], _ => rfl
  | e :: es, E => by
    rw [Expr.lowerAll, run_append_of (e.run_lower E), Expr.run_lowerAll es]
    simp

end

/-- Indices that are stored at end an assignment to the place that they lead to. -/
theorem Expr.run_lowerPlace {v : Expr Ref} {target : Ref} : ∀ (es : List (Expr Ref))
    {e place : Expr Ref} {path : List (Expr Ref)}, place.place? = some (target, path) →
    run ⟨n, ⟨[.value place, .value v], t, B⟩, O⟩ (Expr.lowerPlace (e :: es)) =
      some ⟨n, ⟨[], t, B ++ [.assign target (path ++ e :: es) v]⟩, O⟩
  | [], e, place, path, h => by
    rw [Expr.lowerPlace, run_append_of (e.run_lower n t B O _), run_single]
    exact Raise.exec_setIndex n [] t B O h
  | e' :: es, e, place, path, h => by
    have hplace : (Expr.index place e).place? = some (target, path ++ [e]) := by
      rw [Expr.place?, h]
      rfl
    rw [Expr.lowerPlace, List.append_assoc, run_append_of (e.run_lower n t B O _),
      List.singleton_append, run_cons_of (Raise.exec_getIndex ..), Expr.run_lowerPlace es hplace,
      List.append_assoc, List.singleton_append]
    exact fun h => nomatch h

/-- The code that stores a value ends an assignment, where a slot that is assigned was bound
before. -/
theorem Ref.run_storeAt {target : Ref} (h : ∀ k, target = .slot k → k < n)
    (indices : List (Expr Ref)) (v : Expr Ref) :
    run ⟨n, ⟨[.value v], t, B⟩, O⟩ (target.storeAt indices) =
      some ⟨n, ⟨[], t, B ++ [.assign target indices v]⟩, O⟩ := by
  cases indices with
  | nil =>
    cases target with
    | slot k => exact (run_single ..).trans (Raise.exec_setSlot_of_lt n [] t B O (h k rfl) v)
    | free name => rfl
  | cons e es =>
    change run _ (target.load ++ Expr.lowerPlace (e :: es)) = _
    rw [run_append_of (target.run_load n t B O _)]
    have hplace : (Expr.name target).place? = some (target, []) := rfl
    exact Expr.run_lowerPlace n t B O es hplace

end Expressions

/-! ### Statements -/

/-- A slot that a name refers to was bound before. -/
theorem Scope.lt_of_ref_eq_slot {scope : Scope} {name : String} {k : Nat}
    (h : scope.ref name = .slot k) : k < scope.length := by
  induction scope with
  | nil => cases h
  | cons top scope ih =>
    by_cases ht : top = name
    · have hk : scope.length = k := by simpa [Scope.ref, Scope.slot?, ht] using h
      rw [List.length_cons]
      omega
    · have hs : Scope.ref scope name = .slot k := by
        simpa [Scope.ref, Scope.slot?, ht] using h
      exact Nat.lt_succ_of_lt (ih hs)

mutual

/-- The code of a statement that was resolved ends this statement, in simple form, and takes the
next slot on by the number of its `let`s. -/
theorem Stmt.run_lower : ∀ (s : Stmt String) (scope : Scope), s.Branched →
    ∀ {code : List Instr}, (s.resolve scope).1.lower = .ok code →
    ∀ (t : Option (Expr Ref)) (B : List (Stmt Ref)) (O : List Frame),
      run ⟨scope.length, ⟨[], t, B⟩, O⟩ code =
        some ⟨(s.resolve scope).2.length, ⟨[], t, B ++ [(s.resolve scope).1.desugar]⟩, O⟩
  | .choose arms, scope, ⟨hne, ha⟩, code, hc, t, B, O => by
    have hne' : (arms.resolve scope).1.branches ≠ [] := by
      cases arms with
      | done => exact absurd rfl hne
      | otherwise body => exact absurd rfl hne
      | arm condition body rest => exact List.cons_ne_nil _ _
    have harms := arms.run_lower scope ha hc t B O
    rwa [Arms.elseBody_of_branches hne'] at harms
  | .loop condition body, scope, hs, code, hc, t, B, O => by
    obtain ⟨round, hr, rfl⟩ := Stmt.lower_loop_eq_ok.mp hc
    have hcond := (condition.map scope.ref).run_lower scope.length none [] (⟨[], t, B⟩ :: O) []
    have hround := Stmt.run_lowerAll body scope hs hr (some (condition.map scope.ref)) []
      (⟨[], t, B⟩ :: O)
    have hblock := run_append_of (b := .breakIf :: round) hcond
    rw [run_cons_of (Raise.exec_breakIf ..), hround] at hblock
    rw [List.cons_append, run_block hblock, run_single]
    rfl
  | .ret value, scope, _, code, hc, t, B, O => by
    obtain rfl := Except.ok.inj hc
    exact (run_append_of (Expr.run_lower ..)).trans rfl
  | .assign target indices value, scope, _, code, hc, t, B, O => by
    obtain rfl := Except.ok.inj hc
    refine (run_append_of (Expr.run_lower ..)).trans ?_
    exact Ref.run_storeAt _ t B O (fun k => Scope.lt_of_ref_eq_slot) _ _
  | .declare name initializer, scope, _, code, hc, t, B, O => by
    obtain rfl := Except.ok.inj hc
    refine (run_append_of (Expr.run_lower ..)).trans ?_
    exact (run_single ..).trans (Raise.exec_setSlot_next ..)
  | .run value, scope, _, code, hc, t, B, O => by
    obtain rfl := Except.ok.inj hc
    exact (run_append_of (Expr.run_lower ..)).trans rfl

theorem Arms.run_lower : ∀ (arms : Arms String) (scope : Scope), arms.Branched →
    ∀ {code : List Instr}, (arms.resolve scope).1.lower = .ok code →
    ∀ (t : Option (Expr Ref)) (B : List (Stmt Ref)) (O : List Frame),
      run ⟨scope.length, ⟨[], t, B⟩, O⟩ code =
        some ⟨(arms.resolve scope).2.length, ⟨[], t, B ++ (arms.resolve scope).1.elseBody⟩, O⟩
  | .done, scope, _, code, hc, t, B, O => by
    obtain rfl := Except.ok.inj hc
    change some _ = some (⟨_, ⟨[], t, B ++ []⟩, O⟩ : Raise.State)
    rw [List.append_nil]
    rfl
  | .otherwise body, scope, ha, code, hc, t, B, O => Stmt.run_lowerAll body scope ha hc t B O
  | .arm condition body rest, scope, ⟨hb, hr⟩, code, hc, t, B, O => by
    obtain ⟨yes, no, hy, hn, rfl⟩ := Arms.lower_arm_eq_ok.mp hc
    have hcond := (condition.map scope.ref).run_lower scope.length t B O []
    have hyes := fun O => Stmt.run_lowerAll body scope hb hy none [] O
    have hno := fun O => rest.run_lower _ hr hn none [] O
    rw [List.append_assoc, List.append_assoc, run_append_of hcond]
    simp only [List.cons_append]
    rw [run_block (hyes _), run_block (hno _), run_single]
    rfl

theorem Stmt.run_lowerAll : ∀ (ss : List (Stmt String)) (scope : Scope), Stmt.AllBranched ss →
    ∀ {code : List Instr}, Stmt.lowerAll (Stmt.resolveAll scope ss).1 = .ok code →
    ∀ (t : Option (Expr Ref)) (B : List (Stmt Ref)) (O : List Frame),
      run ⟨scope.length, ⟨[], t, B⟩, O⟩ code =
        some ⟨(Stmt.resolveAll scope ss).2.length,
          ⟨[], t, B ++ Stmt.desugarAll (Stmt.resolveAll scope ss).1⟩, O⟩
  | [], scope, _, code, hc, t, B, O => by
    obtain rfl := Except.ok.inj hc
    change some _ = some (⟨_, ⟨[], t, B ++ []⟩, O⟩ : Raise.State)
    rw [List.append_nil]
    rfl
  | s :: ss, scope, ⟨hs, hss⟩, code, hc, t, B, O => by
    obtain ⟨first, more, hf, hm, rfl⟩ := Stmt.lowerAll_cons_eq_ok.mp hc
    rw [run_append_of (s.run_lower scope hs hf t B O),
      Stmt.run_lowerAll ss _ hss hm, List.append_assoc]
    rfl

end

/-- The statements of a function are read back from their code, in simple form. -/
theorem FunctionDef.run_lower {f : FunctionDef String} (hf : Stmt.AllBranched f.body)
    {code : List Instr} (hc : Stmt.lowerAll f.resolve.value.body = .ok code) :
    (run ⟨f.parameters.length, ⟨[], none, []⟩, []⟩ code).map (·.frame.body) =
      some (Stmt.desugarAll f.resolve.value.body) := by
  have h := Stmt.run_lowerAll f.body f.parameters.reverse hf hc none [] []
  rw [List.length_reverse] at h
  rw [h, Option.map_some, List.nil_append]
  rfl

/-! ### Programs

The code of a declaration begins with a text or with the start mark of a function. Where a
function ends is found by counting marks. After that its name and the number of its parameters
are known, and so are the instructions that it ends with whatever its statements are. -/

/-- Functions with the same code, in front of other code. -/
theorem FunctionDef.desugar_eq_of_lower {entry : String} {f g : FunctionDef String}
    (hf : Stmt.AllBranched f.body) (hg : Stmt.AllBranched g.body)
    {a b k l : List Instr} (ha : f.resolve.value.lower entry = .ok a)
    (hb : g.resolve.value.lower entry = .ok b) (h : a ++ k = b ++ l) :
    f.resolve.value.desugar = g.resolve.value.desugar ∧ k = l := by
  obtain ⟨x, hx, rfl⟩ := FunctionDef.lower_eq_ok.mp ha
  obtain ⟨y, hy, rfl⟩ := FunctionDef.lower_eq_ok.mp hb
  have hnx := ((Stmt.structured_lowerAll _ hx).append
    (structured_closing entry f.resolve.value.name)).nested
  have hny := ((Stmt.structured_lowerAll _ hy).append
    (structured_closing entry g.resolve.value.name)).nested
  simp only [List.cons_append, List.append_assoc, List.cons.injEq, List.nil_append,
    true_and] at h
  rw [← List.append_assoc, ← List.append_assoc y] at h
  have hsplit := congrArg (splitBlock 0) h
  rw [hnx.splitBlock_endBlock, hny.splitBlock_endBlock] at hsplit
  simp only [Option.some.injEq, Prod.mk.injEq, List.cons.injEq, Instr.define.injEq] at hsplit
  obtain ⟨hcode, ⟨hname, hcount⟩, hk⟩ := hsplit
  have hlen : f.parameters.length = g.parameters.length := by
    simpa [FunctionDef.resolve] using hcount
  rw [hname] at hcode
  obtain rfl := List.append_cancel_right hcode
  have hbody := (FunctionDef.run_lower hf hx).symm.trans (hlen ▸ FunctionDef.run_lower hg hy)
  refine ⟨?_, hk⟩
  have hparams : f.resolve.value.parameters = g.resolve.value.parameters := by
    rw [FunctionDef.parameters_resolve, FunctionDef.parameters_resolve, hlen]
  rw [FunctionDef.desugar, FunctionDef.desugar, Option.some.inj hbody, hname, hparams]

/-- Declarations with the same code, in front of other code. -/
theorem Declaration.desugar_eq_of_lower {entry : String} {d e : Declaration String}
    (hd : d.Branched) (he : e.Branched) {a b k l : List Instr}
    (ha : d.resolve.value.lower entry = .ok a) (hb : e.resolve.value.lower entry = .ok b)
    (h : a ++ k = b ++ l) : d.resolve.value.desugar = e.resolve.value.desugar ∧ k = l := by
  cases d with
  | load path =>
    obtain rfl := Except.ok.inj ha
    cases e with
    | load path' =>
      obtain rfl := Except.ok.inj hb
      obtain ⟨⟨rfl⟩, -, rfl⟩ : Instr.string path = .string path' ∧ True ∧ k = l := by
        simpa using h
      exact ⟨rfl, rfl⟩
    | global name =>
      obtain rfl := Except.ok.inj hb
      simp at h
    | define g =>
      obtain ⟨y, -, rfl⟩ := FunctionDef.lower_eq_ok.mp hb
      simp at h
  | global name =>
    obtain rfl := Except.ok.inj ha
    cases e with
    | load path' =>
      obtain rfl := Except.ok.inj hb
      simp at h
    | global name' =>
      obtain rfl := Except.ok.inj hb
      obtain ⟨⟨rfl⟩, -, rfl⟩ : Instr.string name = .string name' ∧ True ∧ k = l := by
        simpa using h
      exact ⟨rfl, rfl⟩
    | define g =>
      obtain ⟨y, -, rfl⟩ := FunctionDef.lower_eq_ok.mp hb
      simp at h
  | define f =>
    cases e with
    | load path =>
      obtain ⟨x, -, rfl⟩ := FunctionDef.lower_eq_ok.mp ha
      obtain rfl := Except.ok.inj hb
      simp at h
    | global name =>
      obtain ⟨x, -, rfl⟩ := FunctionDef.lower_eq_ok.mp ha
      obtain rfl := Except.ok.inj hb
      simp at h
    | define g =>
      obtain ⟨hfg, hk⟩ := FunctionDef.desugar_eq_of_lower hd he ha hb h
      exact ⟨congrArg Declaration.define hfg, hk⟩

/-- The code of a declaration is not empty. -/
theorem Declaration.ne_nil_of_lower {entry : String} {d : Declaration Ref} {code : List Instr}
    (h : d.lower entry = .ok code) : code ≠ [] := by
  cases d with
  | load path =>
    obtain rfl := Except.ok.inj h
    simp
  | global name =>
    obtain rfl := Except.ok.inj h
    simp
  | define f =>
    obtain ⟨body, -, rfl⟩ := FunctionDef.lower_eq_ok.mp h
    simp

/-- Programs with the same code are the same in simple form. -/
theorem Declaration.desugar_eq_of_lowerAll {entry : String} {code : List Instr}
    {ds es : List (Declaration String)} (hds : ∀ d ∈ ds, d.Branched)
    (hes : ∀ e ∈ es, e.Branched)
    (hd : (Declaration.lowerAll entry (ds.map fun d => d.resolve.value)).value = .ok code)
    (he : (Declaration.lowerAll entry (es.map fun e => e.resolve.value)).value = .ok code) :
    ds.map (fun d => d.resolve.value.desugar) = es.map fun e => e.resolve.value.desugar := by
  induction ds generalizing es code with
  | nil =>
    obtain rfl := Except.ok.inj hd
    cases es with
    | nil => rfl
    | cons e es =>
      obtain ⟨b, l, hb, -, hnil⟩ := Declaration.lowerAll_cons_eq_ok.mp he
      exact absurd (List.append_eq_nil_iff.mp hnil.symm).1 (Declaration.ne_nil_of_lower hb)
  | cons d ds ih =>
    obtain ⟨a, k, ha, hk, rfl⟩ := Declaration.lowerAll_cons_eq_ok.mp hd
    cases es with
    | nil =>
      have hnil := (Except.ok.inj he).symm
      exact absurd (List.append_eq_nil_iff.mp hnil).1 (Declaration.ne_nil_of_lower ha)
    | cons e es =>
      obtain ⟨b, l, hb, hl, h⟩ := Declaration.lowerAll_cons_eq_ok.mp he
      obtain ⟨hd₁, hd₂⟩ := List.forall_mem_cons.mp hds
      obtain ⟨he₁, he₂⟩ := List.forall_mem_cons.mp hes
      obtain ⟨hde, rfl⟩ := Declaration.desugar_eq_of_lower hd₁ he₁ ha hb h
      rw [List.map_cons, List.map_cons, hde, ih hd₂ he₂ hk hl]

/-- Lowering loses nothing but the spelling of chains. Two programs in which every `if` has an arm
have code once their names are resolved, and it is the same code exactly if the resolved programs
are the same in simple form. -/
theorem lower_eq_iff_desugar_eq (entry : String) {p q : Program String} (hp : p.Branched)
    (hq : q.Branched) :
    ∃ s t, ((Session.start entry).addResolved p.resolve.value).value = .ok s ∧
      ((Session.start entry).addResolved q.resolve.value).value = .ok t ∧
      (s.instructions = t.instructions ↔ p.resolve.value.desugar = q.resolve.value.desugar) := by
  obtain ⟨a, ha⟩ := p.lower_resolve entry
  obtain ⟨b, hb⟩ := q.lower_resolve entry
  refine ⟨⟨entry, [] ++ a⟩, ⟨entry, [] ++ b⟩, ?_, ?_, ?_⟩
  · rw [Session.addResolved, Session.start, ha]
    rfl
  · rw [Session.addResolved, Session.start, hb]
    rfl
  · rw [List.nil_append, List.nil_append]
    constructor
    · rintro rfl
      rw [Program.resolve_value] at ha hb ⊢
      rw [Program.resolve_value]
      have h := Declaration.desugar_eq_of_lowerAll hp hq ha hb
      simpa [Program.desugar, Function.comp_def] using h
    · intro h
      rw [← Program.lower_desugar, h, Program.lower_desugar, hb] at ha
      exact (Except.ok.inj ha).symm

/-- A chain of two arms, and the same with the second arm inside an `else`, beside a loop with a
`let` and an assignment in it. -/
theorem lower_eq_iff_desugar_eq_chain :
    ∃ s t, ((Session.start "main").addResolved (Program.resolve ⟨[.define ⟨"main", ["a"],
        [.choose (.arm (.name "a") [.ret (.name "b")] (.arm .null [] .done)),
          .loop (.name "a") [.declare "a" (.name "a"), .assign "a" [] .null]]⟩]⟩).value).value =
          .ok s ∧
      ((Session.start "main").addResolved (Program.resolve ⟨[.define ⟨"main", ["c"],
        [.choose (.arm (.name "c") [.ret (.name "b")]
            (.otherwise [.choose (.arm .null [] (.otherwise []))])),
          .loop (.name "c") [.declare "d" (.name "c"), .assign "d" [] .null]]⟩]⟩).value).value =
          .ok t ∧
      s.instructions = t.instructions := by
  obtain ⟨s, t, hs, ht, h⟩ := lower_eq_iff_desugar_eq "main"
    (p := ⟨[.define ⟨"main", ["a"],
      [.choose (.arm (.name "a") [.ret (.name "b")] (.arm .null [] .done)),
        .loop (.name "a") [.declare "a" (.name "a"), .assign "a" [] .null]]⟩]⟩)
    (q := ⟨[.define ⟨"main", ["c"],
      [.choose (.arm (.name "c") [.ret (.name "b")]
          (.otherwise [.choose (.arm .null [] (.otherwise []))])),
        .loop (.name "c") [.declare "d" (.name "c"), .assign "d" [] .null]]⟩]⟩)
    (by simp [Program.Branched, Declaration.Branched, Stmt.AllBranched, Stmt.Branched,
      Arms.Branched, Arms.branches])
    (by simp [Program.Branched, Declaration.Branched, Stmt.AllBranched, Stmt.Branched,
      Arms.Branched, Arms.branches])
  exact ⟨s, t, hs, ht, h.mpr rfl⟩

end StackScript
