/-
# Chains of conditionals

An `if` with any number of arms says no more than one with a single arm and an `else`: the arms
after the first are one nested `if` inside the `else`, and where there is no `else` its body is
empty. Trees are rewritten to this form, and have the same code before and after. An `if` without
any arm has no such form; it is left as it is.

Key definitions: `Stmt.desugar`, `Stmt.Branched`.
Key theorem: `Program.lower_desugar`.
-/
import StackScript.Code.Lowering

namespace StackScript

variable {ν : Type}

/-! ### One arm and an `else` -/

mutual

/-- Gives every `if` one arm and an `else`. -/
def Stmt.desugar : Stmt ν → Stmt ν
  | .choose arms => .choose arms.desugar
  | .loop condition body => .loop condition (Stmt.desugarAll body)
  | .ret value => .ret value
  | .assign target indices value => .assign target indices value
  | .declare name initializer => .declare name initializer
  | .run value => .run value

/-- Gives an `if` one arm and an `else`. -/
def Arms.desugar : Arms ν → Arms ν
  | .done => .done
  | .otherwise body => .otherwise (Stmt.desugarAll body)
  | .arm condition body rest => .arm condition (Stmt.desugarAll body) (.otherwise rest.elseBody)

/-- The body of the `else` that stands for the rest of a chain. -/
def Arms.elseBody : Arms ν → List (Stmt ν)
  | .done => []
  | .otherwise body => Stmt.desugarAll body
  | .arm condition body rest =>
    [.choose (.arm condition (Stmt.desugarAll body) (.otherwise rest.elseBody))]

/-- Gives every `if` of some statements one arm and an `else`. -/
def Stmt.desugarAll : List (Stmt ν) → List (Stmt ν)
  | [] => []
  | s :: ss => s.desugar :: Stmt.desugarAll ss

end

/-- The same in a function. -/
def FunctionDef.desugar (f : FunctionDef ν) : FunctionDef ν :=
  { f with body := Stmt.desugarAll f.body }

/-- The same in a declaration. -/
def Declaration.desugar : Declaration ν → Declaration ν
  | .load path => .load path
  | .global name => .global name
  | .define f => .define f.desugar

/-- The same in a program. -/
def Program.desugar (p : Program ν) : Program ν := ⟨p.declarations.map Declaration.desugar⟩

mutual

/-- Every `if` has an arm. -/
def Stmt.Branched : Stmt ν → Prop
  | .choose arms => arms.branches ≠ [] ∧ arms.Branched
  | .loop _ body => Stmt.AllBranched body
  | .ret _ | .assign _ _ _ | .declare _ _ | .run _ => True

/-- Every `if` in the bodies of a chain has an arm. -/
def Arms.Branched : Arms ν → Prop
  | .done => True
  | .otherwise body => Stmt.AllBranched body
  | .arm _ body rest => Stmt.AllBranched body ∧ rest.Branched

/-- Every `if` in some statements has an arm. -/
def Stmt.AllBranched : List (Stmt ν) → Prop
  | [] => True
  | s :: ss => s.Branched ∧ Stmt.AllBranched ss

end

/-- Every `if` in the function of a declaration has an arm. -/
def Declaration.Branched : Declaration ν → Prop
  | .define f => Stmt.AllBranched f.body
  | .load _ | .global _ => True

/-- Every `if` in a program has an arm. -/
def Program.Branched (p : Program ν) : Prop := ∀ d ∈ p.declarations, d.Branched

/-- The rest of a chain that has an arm is one nested `if`. -/
theorem Arms.elseBody_of_branches {arms : Arms ν} (h : arms.branches ≠ []) :
    arms.elseBody = [.choose arms.desugar] := by
  cases arms with
  | done => exact absurd rfl h
  | otherwise body => exact absurd rfl h
  | arm condition body rest => rfl

/-! ### The code stays the same -/

mutual

theorem Stmt.lower_desugar : ∀ s : Stmt Ref, s.desugar.lower = s.lower
  | .choose arms => arms.lower_desugar
  | .loop condition body => by
    rw [Stmt.desugar, Stmt.lower, Stmt.lower, Stmt.lowerAll_desugarAll body]
  | .ret _ => rfl
  | .assign _ _ _ => rfl
  | .declare _ _ => rfl
  | .run _ => rfl

theorem Arms.lower_desugar : ∀ arms : Arms Ref, arms.desugar.lower = arms.lower
  | .done => rfl
  | .otherwise body => Stmt.lowerAll_desugarAll body
  | .arm condition body rest => by
    rw [Arms.desugar, Arms.lower, Arms.lower, Arms.lower, Stmt.lowerAll_desugarAll body,
      rest.lowerAll_elseBody]

/-- The rest of a chain has the code of the body that stands for it. -/
theorem Arms.lowerAll_elseBody : ∀ arms : Arms Ref, Stmt.lowerAll arms.elseBody = arms.lower
  | .done => rfl
  | .otherwise body => Stmt.lowerAll_desugarAll body
  | .arm condition body rest => by
    have h : Arms.lower (.arm condition (Stmt.desugarAll body) (.otherwise rest.elseBody)) =
        Arms.lower (.arm condition body rest) := by
      rw [Arms.lower, Arms.lower, Arms.lower, Stmt.lowerAll_desugarAll body,
        rest.lowerAll_elseBody]
    rw [Arms.elseBody, Stmt.lowerAll, Stmt.lower, h, Stmt.lowerAll]
    cases Arms.lower (.arm condition body rest) with
    | error u => rfl
    | ok code => simp [bind, Except.bind, pure, Except.pure]

theorem Stmt.lowerAll_desugarAll : ∀ ss : List (Stmt Ref),
    Stmt.lowerAll (Stmt.desugarAll ss) = Stmt.lowerAll ss
  | [] => rfl
  | s :: ss => by
    rw [Stmt.desugarAll, Stmt.lowerAll, Stmt.lowerAll, s.lower_desugar,
      Stmt.lowerAll_desugarAll ss]

end

theorem Declaration.lower_desugar (entry : String) (d : Declaration Ref) :
    d.desugar.lower entry = d.lower entry := by
  cases d with
  | load path => rfl
  | global name => rfl
  | define f =>
    change f.desugar.lower entry = f.lower entry
    rw [FunctionDef.lower, FunctionDef.lower, FunctionDef.desugar, Stmt.lowerAll_desugarAll]

/-- The code of a program does not tell how its `if`s were written. -/
theorem Program.lower_desugar (entry : String) (p : Program Ref) :
    (p.desugar.lower entry).value = (p.lower entry).value := by
  obtain ⟨ds⟩ := p
  simp only [Program.desugar, Program.lower]
  induction ds with
  | nil => rfl
  | cons d ds ih =>
    rw [List.map_cons, Declaration.lowerAll, Declaration.lowerAll, d.lower_desugar]
    cases d.lower entry with
    | error u => rfl
    | ok part => simp only [ih]

end StackScript
