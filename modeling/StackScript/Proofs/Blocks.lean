/-
# Blocks in flat code

The code of a program has no tree structure of its own: a block is found by counting marks, from
a start mark on to the end mark that belongs to it. Where the marks of some code are well nested,
counting goes through it and comes out at the same depth, so a block that holds this code ends
exactly after it.

All code that lowering makes of statements has a stricter form: each block in it is followed by
the conditional or the loop that takes it, breaks stand in the blocks of loops only, one in each,
and none of it is an instruction that belongs between functions.

Key definitions: `splitBlock`, `Nested`, `Structured`.
Key theorems: `Nested.splitBlock_append`, `Structured.nested`, `Stmt.structured_lower`.
-/
import StackScript.Code.Lowering

namespace StackScript

/-! ### What lowering makes of its parts -/

theorem Stmt.lower_loop_eq_ok {condition : Expr Ref} {body : List (Stmt Ref)}
    {code : List Instr} : Stmt.lower (.loop condition body) = .ok code ↔
      ∃ round, Stmt.lowerAll body = .ok round ∧
        code = .startBlock :: (condition.lower ++ .breakIf :: round) ++ [.endBlock, .loop] := by
  rw [Stmt.lower]
  cases Stmt.lowerAll body with
  | error u => simp [bind, Except.bind]
  | ok round => simp [bind, Except.bind, pure, Except.pure, eq_comm]

theorem Arms.lower_arm_eq_ok {condition : Expr Ref} {body : List (Stmt Ref)} {rest : Arms Ref}
    {code : List Instr} : Arms.lower (.arm condition body rest) = .ok code ↔
      ∃ yes no, Stmt.lowerAll body = .ok yes ∧ rest.lower = .ok no ∧
        code = condition.lower ++ .startBlock :: yes ++ .endBlock :: .startBlock :: no ++
          [.endBlock, .choose] := by
  rw [Arms.lower]
  cases Stmt.lowerAll body with
  | error u => simp [bind, Except.bind]
  | ok yes =>
    cases rest.lower with
    | error u => simp [bind, Except.bind]
    | ok no => simp [bind, Except.bind, pure, Except.pure, eq_comm]

theorem Stmt.lowerAll_cons_eq_ok {s : Stmt Ref} {ss : List (Stmt Ref)} {code : List Instr} :
    Stmt.lowerAll (s :: ss) = .ok code ↔
      ∃ first more, s.lower = .ok first ∧ Stmt.lowerAll ss = .ok more ∧ code = first ++ more := by
  rw [Stmt.lowerAll]
  cases s.lower with
  | error u => simp [bind, Except.bind]
  | ok first =>
    cases Stmt.lowerAll ss with
    | error u => simp [bind, Except.bind]
    | ok more => simp [bind, Except.bind, pure, Except.pure, eq_comm]

/-- No operator stores at an index, which is the one known call without a result. -/
theorem BinaryOp.routine_ne (op : BinaryOp) : op.routine ≠ "==[]" := by
  cases op <;> decide

theorem UnaryOp.routine_ne (op : UnaryOp) : op.routine ≠ "==[]" := by
  cases op <;> decide

/-- What a function does after its statements. -/
def closing (entry name : String) : List Instr :=
  (if name = entry then [.integer 0, .exit] else []) ++ [.null, .ret]

theorem FunctionDef.lower_eq_ok {entry : String} {f : FunctionDef Ref} {code : List Instr} :
    f.lower entry = .ok code ↔
      ∃ body, Stmt.lowerAll f.body = .ok body ∧
        code = .startBlock :: (body ++ closing entry f.name) ++
          [.endBlock, .define f.name f.parameters.length] := by
  rw [FunctionDef.lower]
  cases Stmt.lowerAll f.body with
  | error u => simp [bind, Except.bind]
  | ok body => simp [bind, Except.bind, pure, Except.pure, eq_comm, epilogue, closing]

theorem Declaration.lowerAll_cons_eq_ok {entry : String} {d : Declaration Ref}
    {ds : List (Declaration Ref)} {code : List Instr} :
    (Declaration.lowerAll entry (d :: ds)).value = .ok code ↔
      ∃ part more, d.lower entry = .ok part ∧ (Declaration.lowerAll entry ds).value = .ok more ∧
        code = part ++ more := by
  rw [Declaration.lowerAll]
  cases d.lower entry with
  | error u => simp
  | ok part =>
    cases hds : (Declaration.lowerAll entry ds).value with
    | error u => simp [hds, Except.map]
    | ok more => simp [hds, Except.map, eq_comm]

/-! ### Marks -/

/-- The instructions that begin and end blocks. -/
def Instr.isMark : Instr → Bool
  | startBlock | endBlock => true
  | _ => false

theorem Instr.ne_of_isMark {i : Instr} (h : i.isMark = false) :
    i ≠ .startBlock ∧ i ≠ .endBlock := by
  constructor <;> (rintro rfl; cases h)

/-- The code up to the end mark that is met at depth zero, and the code after it. -/
def splitBlock : Nat → List Instr → Option (List Instr × List Instr)
  | _, [] => none
  | depth, .startBlock :: code =>
    (splitBlock (depth + 1) code).map fun p => (.startBlock :: p.1, p.2)
  | 0, .endBlock :: code => some ([], code)
  | depth + 1, .endBlock :: code => (splitBlock depth code).map fun p => (.endBlock :: p.1, p.2)
  | depth, i :: code => (splitBlock depth code).map fun p => (i :: p.1, p.2)

theorem splitBlock_plain {i : Instr} (h : i.isMark = false) (depth : Nat) (code : List Instr) :
    splitBlock depth (i :: code) = (splitBlock depth code).map fun p => (i :: p.1, p.2) := by
  obtain ⟨hs, he⟩ := Instr.ne_of_isMark h
  rw [splitBlock]
  · exact hs
  · exact fun _ => he
  · exact fun _ _ => he

/-- Every start mark has an end mark, and the other way round. The other instructions are of the
kind `p`. -/
inductive Nested (p : Instr → Bool) : List Instr → Prop
  | nil : Nested p []
  | plain {i code} : i.isMark = false → p i = true → Nested p code → Nested p (i :: code)
  | block {inner code} : Nested p inner → Nested p code →
      Nested p (.startBlock :: inner ++ .endBlock :: code)

/-- The instructions that can stand in a function. -/
def Instr.isInner : Instr → Bool
  | load | define _ _ | declareGlobal => false
  | _ => true

namespace Nested

variable {p q : Instr → Bool} {a b code : List Instr}

theorem append (ha : Nested p a) (hb : Nested p b) : Nested p (a ++ b) := by
  induction ha with
  | nil => exact hb
  | plain hi hp _ ih => exact .plain hi hp ih
  | block hi _ _ ih =>
    rw [List.append_assoc, List.cons_append]
    exact .block hi ih

theorem mono (h : Nested p code) (hpq : ∀ i, p i = true → q i = true) : Nested q code := by
  induction h with
  | nil => exact .nil
  | plain hi hp _ ih => exact .plain hi (hpq _ hp) ih
  | block _ _ ih₁ ih₂ => exact .block ih₁ ih₂

/-- Counting marks goes through well-nested code. -/
theorem splitBlock_append (h : Nested p code) (depth : Nat) (rest : List Instr) :
    splitBlock depth (code ++ rest) =
      (splitBlock depth rest).map fun p => (code ++ p.1, p.2) := by
  induction h generalizing depth rest with
  | nil => simp
  | plain hi _ _ ih =>
    rw [List.cons_append, splitBlock_plain hi, ih]
    simp [Function.comp_def]
  | @block inner code _ _ ih₁ ih₂ =>
    have he : splitBlock (depth + 1) (.endBlock :: (code ++ rest)) =
        (splitBlock depth (code ++ rest)).map fun p => (.endBlock :: p.1, p.2) := by
      rw [splitBlock]
    rw [List.append_assoc, List.cons_append, List.cons_append, splitBlock, ih₁, he, ih₂]
    simp [Function.comp_def]

/-- A block ends after the code in it. -/
theorem splitBlock_endBlock (h : Nested p code) (rest : List Instr) :
    splitBlock 0 (code ++ .endBlock :: rest) = some (code, rest) := by
  rw [h.splitBlock_append, splitBlock]
  simp

end Nested

/-! ### Loops and conditionals

Marks alone do not say which instruction takes a block. In the code of statements it is always the
one that follows. -/

/-- The instructions that stand for themselves in a function: they have no part in blocks. -/
def Instr.isPlain : Instr → Bool
  | startBlock | endBlock | choose | loop | breakIf | load | define _ _ | declareGlobal => false
  | _ => true

/-- Code made of whole conditionals, whole loops and other instructions, with `n` breaks outside
of all blocks. A loop has one break outside of the blocks in it, and a conditional has none. -/
inductive Structured : Nat → List Instr → Prop
  | nil : Structured 0 []
  | plain {i n code} : i.isPlain = true → Structured n code → Structured n (i :: code)
  | breakIf {n code} : Structured n code → Structured (n + 1) (.breakIf :: code)
  | choose {n yes no code} : Structured 0 yes → Structured 0 no → Structured n code →
      Structured n (.startBlock :: yes ++
        .endBlock :: (.startBlock :: no ++ .endBlock :: .choose :: code))
  | loop {n round code} : Structured 1 round → Structured n code →
      Structured n (.startBlock :: round ++ .endBlock :: .loop :: code)

namespace Structured

variable {m n : Nat} {a b code : List Instr}

theorem single {i : Instr} (h : i.isPlain = true) : Structured 0 [i] := .plain h .nil

theorem append (ha : Structured m a) (hb : Structured n b) : Structured (m + n) (a ++ b) := by
  induction ha with
  | nil => rwa [Nat.zero_add]
  | plain hi _ ih => exact .plain hi ih
  | breakIf _ ih =>
    rw [Nat.add_right_comm]
    exact .breakIf ih
  | choose hy hn _ _ _ ih =>
    simp only [List.append_assoc, List.cons_append]
    exact .choose hy hn ih
  | loop hr _ _ ih =>
    simp only [List.append_assoc, List.cons_append]
    exact .loop hr ih

theorem nested (h : Structured n code) : Nested Instr.isInner code := by
  induction h with
  | nil => exact .nil
  | @plain i _ _ hi _ ih =>
    have hm : i.isMark = false ∧ i.isInner = true := by
      cases i <;> first | exact ⟨rfl, rfl⟩ | cases hi
    exact .plain hm.1 hm.2 ih
  | breakIf _ ih => exact .plain rfl rfl ih
  | choose _ _ _ ihy ihn ih => exact .block ihy (.block ihn (.plain rfl rfl ih))
  | loop _ _ ihr ih => exact .block ihr (.plain rfl rfl ih)

end Structured

/-! ### Lowered code is structured -/

theorem Ref.structured_load (n : Ref) : Structured 0 n.load := by
  cases n with
  | slot k => exact .single rfl
  | free name => exact .plain rfl (.single rfl)

theorem Ref.structured_store (n : Ref) : Structured 0 n.store := by
  cases n with
  | slot k => exact .single rfl
  | free name => exact .plain rfl (.single rfl)

mutual

theorem Expr.structured_lower : ∀ e : Expr Ref, Structured 0 e.lower
  | .null => .single rfl
  | .boolean _ => .single rfl
  | .integer _ => .single rfl
  | .string _ => .single rfl
  | .list elements => (Expr.structured_lowerAll elements).append (.single rfl)
  | .name n => n.structured_load
  | .binary _ left right =>
    (left.structured_lower.append right.structured_lower).append (.single rfl)
  | .unary _ operand => operand.structured_lower.append (.single rfl)
  | .index collection key =>
    (collection.structured_lower.append key.structured_lower).append (.single rfl)
  | .call callee arguments =>
    ((Expr.structured_lowerAll arguments).append callee.structured_lower).append (.single rfl)

theorem Expr.structured_lowerAll : ∀ es : List (Expr Ref), Structured 0 (Expr.lowerAll es)
  | [] => .nil
  | e :: es => e.structured_lower.append (Expr.structured_lowerAll es)

end

theorem Expr.structured_lowerPlace : ∀ es : List (Expr Ref), Structured 0 (Expr.lowerPlace es)
  | [] => .nil
  | [last] => last.structured_lower.append (.single rfl)
  | e :: e' :: es => by
    have hkey := e.structured_lower.append (.single (i := .getIndex) rfl)
    exact hkey.append (Expr.structured_lowerPlace (e' :: es))

theorem Ref.structured_storeAt (target : Ref) (indices : List (Expr Ref)) :
    Structured 0 (target.storeAt indices) := by
  cases indices with
  | nil => exact target.structured_store
  | cons e es => exact target.structured_load.append (Expr.structured_lowerPlace (e :: es))

mutual

/-- The code of a statement has no break outside of loops. -/
theorem Stmt.structured_lower : ∀ (s : Stmt Ref) {code : List Instr}, s.lower = .ok code →
    Structured 0 code
  | .choose arms, _, h => arms.structured_lower h
  | .loop condition body, _, h => by
    obtain ⟨round, hr, rfl⟩ := Stmt.lower_loop_eq_ok.mp h
    have hb := Stmt.structured_lowerAll body hr
    exact .loop (condition.structured_lower.append (.breakIf hb)) .nil
  | .ret value, _, h => by
    obtain rfl := Except.ok.inj h
    exact value.structured_lower.append (.single rfl)
  | .assign target indices value, _, h => by
    obtain rfl := Except.ok.inj h
    exact value.structured_lower.append (target.structured_storeAt indices)
  | .declare (.slot k) initializer, _, h => by
    obtain rfl := Except.ok.inj h
    exact initializer.structured_lower.append (.single rfl)
  | .declare (.free n) _, _, h => nomatch h
  | .run value, _, h => by
    obtain rfl := Except.ok.inj h
    exact value.structured_lower.append (.single rfl)

theorem Arms.structured_lower : ∀ (arms : Arms Ref) {code : List Instr},
    arms.lower = .ok code → Structured 0 code
  | .done, _, h => by
    obtain rfl := Except.ok.inj h
    exact .nil
  | .otherwise body, _, h => Stmt.structured_lowerAll body h
  | .arm condition body rest, _, h => by
    obtain ⟨yes, no, hy, hn, rfl⟩ := Arms.lower_arm_eq_ok.mp h
    have hyes := Stmt.structured_lowerAll body hy
    have hno := rest.structured_lower hn
    rw [List.append_assoc, List.append_assoc, List.cons_append]
    exact condition.structured_lower.append (.choose hyes hno .nil)

theorem Stmt.structured_lowerAll : ∀ (ss : List (Stmt Ref)) {code : List Instr},
    Stmt.lowerAll ss = .ok code → Structured 0 code
  | [], _, h => by
    obtain rfl := Except.ok.inj h
    exact .nil
  | s :: ss, _, h => by
    obtain ⟨first, more, hf, hm, rfl⟩ := Stmt.lowerAll_cons_eq_ok.mp h
    exact (s.structured_lower hf).append (Stmt.structured_lowerAll ss hm)

end

theorem structured_closing (entry name : String) : Structured 0 (closing entry name) := by
  unfold closing
  split
  · exact .plain rfl (.plain rfl (.plain rfl (.single rfl)))
  · exact .plain rfl (.single rfl)

end StackScript
