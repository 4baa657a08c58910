/-
# Slots are written in order before they are used

The parameters of a function have the first slots, and each `let` takes the next one. Resolving
hands the slots out along the source, and lowering puts the code of some parts in another order:
the value of an assignment before its target, arguments before what is called, and all arms of an
`if` but the first inside the one before. None of this moves a `let` past another one, or a use
past the `let` that it refers to.

This is said of code by going through it from left to right with the number of slots that are in
use so far. Every slot that is mentioned is one of these, or it is the next one and is written
(`Fills`). The code of an expression takes no slot, and that of a statement takes as many as the
scope grows by.

Key definitions: `Instr.slot?`, `firstMention`, `Fills`, `SlotsInOrder`.
Key theorems: `Stmt.fills_lower`, `Fills.slotsInOrder`, `compile_slots_in_order`.
-/
import StackScript.Proofs.Raising
import StackScript.Proofs.Scoping
import StackScript.Proofs.StackDiscipline

namespace StackScript

/-- The slot that an instruction reads or writes. -/
def Instr.slot? : Instr → Option Nat
  | getSlot k | setSlot k => some k
  | _ => none

/-- The place of the first instruction that mentions a slot; the end of the code if none does. -/
def firstMention (code : List Instr) (k : Nat) : Nat := code.findIdx fun i => i.slot? = some k

/-- The code of a function uses the slots of its parameters and its `let`s. -/
structure SlotsInOrder (parameters lets : Nat) (code : List Instr) : Prop where
  /-- There are no other slots. -/
  lt : ∀ i ∈ code, ∀ k ∈ i.slot?, k < parameters + lets
  /-- The first to mention the slot of a `let` writes it. -/
  written : ∀ k, parameters ≤ k → k < parameters + lets →
    code[firstMention code k]? = some (.setSlot k)
  /-- The first mentions of these slots come in the order of the slots. -/
  increasing : ∀ j k, parameters ≤ j → j < k → k < parameters + lets →
    firstMention code j < firstMention code k

/-! ### Going through code -/

/-- Code that starts when `n` slots are in use, and ends with `m`. -/
inductive Fills : Nat → List Instr → Nat → Prop
  | nil {n} : Fills n [] n
  /-- A slot that is in use, or none. -/
  | known {n m i code} : (∀ k ∈ i.slot?, k < n) → Fills n code m → Fills n (i :: code) m
  /-- The next slot is written. -/
  | next {n m code} : Fills (n + 1) code m → Fills n (.setSlot n :: code) m

theorem firstMention_cons_self {i : Instr} {k : Nat} (h : i.slot? = some k) (code : List Instr) :
    firstMention (i :: code) k = 0 := by
  simp [firstMention, List.findIdx_cons, h]

theorem firstMention_cons_of_ne {i : Instr} {k : Nat} (h : i.slot? ≠ some k) (code : List Instr) :
    firstMention (i :: code) k = firstMention code k + 1 := by
  simp [firstMention, List.findIdx_cons, h]

namespace Fills

variable {l m n : Nat} {a b code : List Instr}

theorem single {i : Instr} (h : i.slot? = none) : Fills n [i] n :=
  .known (by simp [h]) .nil

theorem append (ha : Fills l a m) (hb : Fills m b n) : Fills l (a ++ b) n := by
  induction ha with
  | nil => exact hb
  | known hk _ ih => exact .known hk (ih hb)
  | next _ ih => exact .next (ih hb)

/-- Code in a block, and what takes the block. -/
theorem block {i : Instr} (h : Fills n code m) (hi : i.slot? = none) :
    Fills n (.startBlock :: code ++ [.endBlock, i]) m := by
  have hend : Fills m [.endBlock, i] m := .known (by simp [Instr.slot?]) (.single hi)
  exact .known (by simp [Instr.slot?]) (h.append hend)

theorem le (h : Fills n code m) : n ≤ m := by
  induction h with
  | nil => exact Nat.le_refl _
  | known _ _ ih => exact ih
  | next _ ih => omega

theorem slot_lt (h : Fills n code m) : ∀ i ∈ code, ∀ k ∈ i.slot?, k < m := by
  induction h with
  | nil => simp
  | @known n m i code hk hcode ih =>
    have hle := hcode.le
    refine List.forall_mem_cons.mpr ⟨fun k hmem => ?_, ih⟩
    have hlt := hk k hmem
    omega
  | @next n m code hcode ih =>
    have hle := hcode.le
    refine List.forall_mem_cons.mpr ⟨fun k hmem => ?_, ih⟩
    obtain rfl : n = k := Option.some.inj hmem
    omega

/-- An instruction that mentions slots in use is not the first to mention a later one. -/
theorem firstMention_known {i : Instr} {k : Nat} (hk : ∀ k ∈ i.slot?, k < n) (hn : n ≤ k)
    (code : List Instr) : firstMention (i :: code) k = firstMention code k + 1 := by
  refine firstMention_cons_of_ne (fun h => ?_) code
  have hlt := hk k h
  omega

/-- Each slot that the code takes is written where it is first mentioned. -/
theorem written (h : Fills n code m) {k : Nat} (hn : n ≤ k) (hm : k < m) :
    code[firstMention code k]? = some (.setSlot k) := by
  induction h with
  | nil => omega
  | known hk _ ih =>
    rw [firstMention_known hk hn, List.getElem?_cons_succ]
    exact ih hn hm
  | @next n m code _ ih =>
    rcases Nat.eq_or_lt_of_le hn with rfl | hlt
    · rw [firstMention_cons_self rfl]
      rfl
    · have hne : (Instr.setSlot n).slot? ≠ some k := fun he => by
        have := Option.some.inj he
        omega
      rw [firstMention_cons_of_ne hne, List.getElem?_cons_succ]
      exact ih hlt hm

/-- The slots that the code takes are first mentioned one after the other. -/
theorem increasing (h : Fills n code m) {j k : Nat} (hn : n ≤ j) (hjk : j < k) (hm : k < m) :
    firstMention code j < firstMention code k := by
  induction h with
  | nil => omega
  | known hk _ ih =>
    rw [firstMention_known hk hn, firstMention_known hk (by omega)]
    have := ih hn hm
    omega
  | @next n m code _ ih =>
    have hne : ∀ k, n < k → (Instr.setSlot n).slot? ≠ some k := fun k hlt he => by
      have := Option.some.inj he
      omega
    rw [firstMention_cons_of_ne (hne k (by omega))]
    rcases Nat.eq_or_lt_of_le hn with rfl | hlt
    · rw [firstMention_cons_self rfl]
      omega
    · rw [firstMention_cons_of_ne (hne j hlt)]
      have := ih hlt hm
      omega

theorem slotsInOrder {parameters lets : Nat} (h : Fills parameters code (parameters + lets)) :
    SlotsInOrder parameters lets code where
  lt := h.slot_lt
  written _ hn hm := h.written hn hm
  increasing _ _ hn hjk hm := h.increasing hn hjk hm

end Fills

/-! ### Lowered code

An expression is resolved in one scope, so all slots in its code are in use before it. -/

theorem Scope.fills_load (scope : Scope) (name : String) :
    Fills scope.length (scope.ref name).load scope.length := by
  cases h : scope.ref name with
  | slot k => exact .known (fun _ hk => Option.some.inj hk ▸ scope.lt_of_ref_eq_slot h) .nil
  | free n => exact .known (by simp [Instr.slot?]) (.single rfl)

theorem Scope.fills_store (scope : Scope) (name : String) :
    Fills scope.length (scope.ref name).store scope.length := by
  cases h : scope.ref name with
  | slot k => exact .known (fun _ hk => Option.some.inj hk ▸ scope.lt_of_ref_eq_slot h) .nil
  | free n => exact .known (by simp [Instr.slot?]) (.single rfl)

mutual

theorem Expr.fills_lower (scope : Scope) : ∀ e : Expr String,
    Fills scope.length (e.map scope.ref).lower scope.length
  | .null => .single rfl
  | .boolean _ => .single rfl
  | .integer _ => .single rfl
  | .string _ => .single rfl
  | .list elements => (Expr.fills_lowerAll scope elements).append (.single rfl)
  | .name n => scope.fills_load n
  | .binary _ left right =>
    ((left.fills_lower scope).append (right.fills_lower scope)).append (.single rfl)
  | .unary _ operand => (operand.fills_lower scope).append (.single rfl)
  | .index collection key =>
    ((collection.fills_lower scope).append (key.fills_lower scope)).append (.single rfl)
  | .call callee arguments =>
    ((Expr.fills_lowerAll scope arguments).append (callee.fills_lower scope)).append (.single rfl)

theorem Expr.fills_lowerAll (scope : Scope) : ∀ es : List (Expr String),
    Fills scope.length (Expr.lowerAll (Expr.mapAll scope.ref es)) scope.length
  | [] => .nil
  | e :: es => (e.fills_lower scope).append (Expr.fills_lowerAll scope es)

end

theorem Expr.fills_lowerPlace (scope : Scope) : ∀ es : List (Expr String),
    Fills scope.length (Expr.lowerPlace (Expr.mapAll scope.ref es)) scope.length
  | [] => .nil
  | [last] => (last.fills_lower scope).append (.single rfl)
  | e :: e' :: es => by
    have hkey : Fills scope.length ((e.map scope.ref).lower ++ [.getIndex]) scope.length :=
      (e.fills_lower scope).append (.single rfl)
    exact hkey.append (Expr.fills_lowerPlace scope (e' :: es))

theorem Scope.fills_storeAt (scope : Scope) (target : String) (indices : List (Expr String)) :
    Fills scope.length ((scope.ref target).storeAt (Expr.mapAll scope.ref indices))
      scope.length := by
  cases indices with
  | nil => exact scope.fills_store target
  | cons e es => exact (scope.fills_load target).append (Expr.fills_lowerPlace scope (e :: es))

mutual

/-- The code of a statement takes the slots that the statement adds to the scope. -/
theorem Stmt.fills_lower : ∀ (s : Stmt String) (scope : Scope) {code : List Instr},
    (s.resolve scope).1.lower = .ok code →
      Fills scope.length code (s.resolve scope).2.length
  | .choose arms, scope, _, h => arms.fills_lower scope h
  | .loop condition body, scope, _, h => by
    obtain ⟨round, hr, rfl⟩ := Stmt.lower_loop_eq_ok.mp h
    have hbody := Stmt.fills_lowerAll body scope hr
    have htest : Fills scope.length ((condition.map scope.ref).lower ++ [.breakIf]) scope.length :=
      (condition.fills_lower scope).append (.single rfl)
    have hround := htest.append hbody
    rw [List.append_assoc, List.singleton_append] at hround
    exact hround.block rfl
  | .ret value, scope, _, h => by
    obtain rfl := Except.ok.inj h
    exact (value.fills_lower scope).append (.single rfl)
  | .assign target indices value, scope, _, h => by
    obtain rfl := Except.ok.inj h
    exact (value.fills_lower scope).append (scope.fills_storeAt target indices)
  | .declare name initializer, scope, _, h => by
    obtain rfl := Except.ok.inj h
    exact (initializer.fills_lower scope).append (.next .nil)
  | .run value, scope, _, h => by
    obtain rfl := Except.ok.inj h
    exact (value.fills_lower scope).append (.single rfl)

theorem Arms.fills_lower : ∀ (arms : Arms String) (scope : Scope) {code : List Instr},
    (arms.resolve scope).1.lower = .ok code →
      Fills scope.length code (arms.resolve scope).2.length
  | .done, scope, _, h => by
    obtain rfl := Except.ok.inj h
    exact .nil
  | .otherwise body, scope, _, h => Stmt.fills_lowerAll body scope h
  | .arm condition body rest, scope, _, h => by
    obtain ⟨yes, no, hy, hn, rfl⟩ := Arms.lower_arm_eq_ok.mp h
    have hcondition := condition.fills_lower scope
    -- the other arms begin with the scope that the body of this one leaves, as in the source
    have hyes := Stmt.fills_lowerAll body scope hy
    have hno := (rest.fills_lower _ hn).block (i := .choose) rfl
    have hboth := hyes.append (.known (i := .endBlock) (by simp [Instr.slot?]) hno)
    have hall := hcondition.append (.known (i := .startBlock) (by simp [Instr.slot?]) hboth)
    simpa [Arms.resolve] using hall

theorem Stmt.fills_lowerAll : ∀ (ss : List (Stmt String)) (scope : Scope) {code : List Instr},
    Stmt.lowerAll (Stmt.resolveAll scope ss).1 = .ok code →
      Fills scope.length code (Stmt.resolveAll scope ss).2.length
  | [], scope, _, h => by
    obtain rfl := Except.ok.inj h
    exact .nil
  | s :: ss, scope, _, h => by
    obtain ⟨first, more, hf, hm, rfl⟩ := Stmt.lowerAll_cons_eq_ok.mp h
    exact (s.fills_lower scope hf).append (Stmt.fills_lowerAll ss _ hm)

end

theorem fills_closing (entry name : String) (n : Nat) : Fills n (closing entry name) n := by
  have hend : Fills n [.null, .ret] n := .known (by simp [Instr.slot?]) (.single rfl)
  unfold closing
  split
  · have hexit : Fills n [.integer 0, .exit] n := .known (by simp [Instr.slot?]) (.single rfl)
    exact hexit.append hend
  · exact hend

/-! ### Functions -/

/-- The number of `let`s in a function, at any depth. -/
def FunctionDef.letCount {ν : Type} (f : FunctionDef ν) : Nat :=
  (Occurrence.bound (Stmt.occurrencesAll f.body)).length

/-- The code of a function takes one slot for each `let`. -/
theorem FunctionDef.fills_lower {entry : String} {f : FunctionDef String} {code : List Instr}
    (h : f.resolve.value.lower entry = .ok code) :
    Fills f.parameters.length code (f.parameters.length + f.letCount) := by
  obtain ⟨body, hb, rfl⟩ := FunctionDef.lower_eq_ok.mp h
  have hbody := Stmt.fills_lowerAll f.body f.parameters.reverse hb
  have hscope := (Stmt.occurrencesAll_resolveAll f.body f.parameters.reverse).2
  have hcount : (Stmt.resolveAll f.parameters.reverse f.body).2.length =
      f.parameters.length + f.letCount := by
    rw [hscope, List.length_append, List.length_reverse, List.length_reverse,
      FunctionDef.letCount]
    omega
  rw [List.length_reverse, hcount] at hbody
  exact (hbody.append (fills_closing entry _ _)).block rfl

/-- The code of a program is that of its declarations, in order. -/
theorem Declaration.lowerAll_split {entry : String} {d : Declaration Ref}
    {before after : List (Declaration Ref)} {code : List Instr}
    (h : (Declaration.lowerAll entry (before ++ d :: after)).value = .ok code) :
    ∃ pre part post, (Declaration.lowerAll entry before).value = .ok pre ∧
      d.lower entry = .ok part ∧ (Declaration.lowerAll entry after).value = .ok post ∧
        code = pre ++ part ++ post := by
  induction before generalizing code with
  | nil =>
    obtain ⟨part, post, hpart, hpost, rfl⟩ := Declaration.lowerAll_cons_eq_ok.mp h
    exact ⟨[], part, post, rfl, hpart, hpost, rfl⟩
  | cons first before ih =>
    obtain ⟨head, more, hhead, hmore, rfl⟩ := Declaration.lowerAll_cons_eq_ok.mp h
    obtain ⟨pre, part, post, hpre, hpart, hpost, rfl⟩ := ih hmore
    refine ⟨head ++ pre, part, post, ?_, hpart, hpost, by simp⟩
    exact Declaration.lowerAll_cons_eq_ok.mpr ⟨head, pre, hhead, hpre, rfl⟩

/-- In the code of a program that was compiled the code of each function stands between that of the
declarations before and after it. All slots in it are those of the parameters and the `let`s of the
function. The slot of a `let` is written by the first instruction that mentions it, and these
instructions come in the order of the slots. -/
theorem compile_slots_in_order {entry source : String} {code : Code}
    (h : (compile entry source).value = .ok code) :
    ∃ p, (parse source).value = .ok p ∧
      ∀ before f after, p.declarations = before ++ .define f :: after →
        ∃ pre part post, code.instructions = pre ++ part ++ post ∧
          ((Program.mk before).resolve.value.lower entry).value = .ok pre ∧
          f.resolve.value.lower entry = .ok part ∧
          ((Program.mk after).resolve.value.lower entry).value = .ok post ∧
          SlotsInOrder f.parameters.length f.letCount part := by
  obtain ⟨p, instructions, hp, hl, rfl⟩ := compile_eq_ok_iff.mp h
  refine ⟨p, hp, fun before f after hsplit => ?_⟩
  rw [Program.lower, Program.resolve_value, hsplit, List.map_append, List.map_cons] at hl
  obtain ⟨pre, part, post, hpre, hpart, hpost, hcode⟩ := Declaration.lowerAll_split hl
  have hfills := FunctionDef.fills_lower hpart
  refine ⟨pre, part, post, hcode, ?_, hpart, ?_, hfills.slotsInOrder⟩
  · rw [Program.lower, Program.resolve_value]
    exact hpre
  · rw [Program.lower, Program.resolve_value]
    exact hpost

/-- Two `let`s of one name, one of them in a loop, and one in each arm of an `if`. -/
theorem compile_slots_in_order_arms : ∃ code,
    (compile "main" ("function f(m) \x7blet a = m; while(a) \x7blet a = a;\x7d" ++
      "if(m) \x7blet b = a;\x7d else \x7blet c = b;\x7d\x7d")).value = .ok code ∧
    code.instructions = [.startBlock, .getSlot 0, .setSlot 1, .startBlock, .getSlot 1, .breakIf,
      .getSlot 1, .setSlot 2, .endBlock, .loop, .getSlot 0, .startBlock, .getSlot 2, .setSlot 3,
      .endBlock, .startBlock, .getSlot 3, .setSlot 4, .endBlock, .choose, .null, .ret, .endBlock,
      .define "f" 1] ∧
    SlotsInOrder 1 4 code.instructions := by
  generalize hsource : "function f(m) \x7blet a = m; while(a) \x7blet a = a;\x7d" ++
    "if(m) \x7blet b = a;\x7d else \x7blet c = b;\x7d\x7d" = source
  have hcode : (compile "main" source).value.toOption =
      some (.ofInstructions [.startBlock, .getSlot 0, .setSlot 1, .startBlock, .getSlot 1, .breakIf,
        .getSlot 1, .setSlot 2, .endBlock, .loop, .getSlot 0, .startBlock, .getSlot 2, .setSlot 3,
        .endBlock, .startBlock, .getSlot 3, .setSlot 4, .endBlock, .choose, .null, .ret, .endBlock,
        .define "f" 1]) := by
    rw [← hsource]
    decide +kernel
  have hshape : ((parse source).value.toOption.map fun p => (p.declarations.length,
      p.functions.map fun f => (f.parameters.length, f.letCount))) = some (1, [(1, 4)]) := by
    rw [← hsource]
    decide +kernel
  have hok := compile_eq_ok_of_toOption hcode
  obtain ⟨⟨ds⟩, hp, hall⟩ := compile_slots_in_order hok
  rw [hp] at hshape
  obtain ⟨hlength, hfunctions⟩ := Prod.mk.inj (Option.some.inj hshape)
  obtain ⟨d, rfl⟩ := List.length_eq_one_iff.mp hlength
  cases d with
  | load path => cases hfunctions
  | global name => cases hfunctions
  | define f =>
    obtain ⟨pre, part, post, hsplit, hpre, -, hpost, hslots⟩ := hall [] f [] rfl
    obtain rfl := Except.ok.inj hpre
    obtain rfl := Except.ok.inj hpost
    obtain ⟨hparameters, hlets⟩ := Prod.mk.inj (List.cons.inj hfunctions).1
    rw [hparameters, hlets] at hslots
    rw [List.nil_append, List.append_nil] at hsplit
    exact ⟨_, hok, rfl, hsplit ▸ hslots⟩

end StackScript
