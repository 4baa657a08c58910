/-
# Where every `let` has a slot

The names that were given no slot are the one thing that lowering can fail at. Here they are
listed, in the order of the source and without any code. Lowering fails at the first of them. A
tree that has none is lowered, and a tree that was resolved has none.

Key definitions: `Stmt.unslotted`, `Stmt.unslottedAll`, `failure?`.
Key theorems: `Stmt.failure?_lower`, `Stmt.lower_of_unslotted`, `Stmt.unslotted_resolve`,
`Program.lower_resolve`.
-/
import StackScript.Proofs.Blocks
import StackScript.Scope

namespace StackScript

mutual

/-- The names of the `let`s without a slot in a statement, in order. -/
def Stmt.unslotted : Stmt Ref → List String
  | .choose arms => arms.unslotted
  | .loop _ body => Stmt.unslottedAll body
  | .declare (.free n) _ => [n]
  | .declare (.slot _) _ | .ret _ | .assign _ _ _ | .run _ => []

/-- The names of the `let`s without a slot in the arms of an `if`, in order. -/
def Arms.unslotted : Arms Ref → List String
  | .done => []
  | .otherwise body => Stmt.unslottedAll body
  | .arm _ body rest => Stmt.unslottedAll body ++ rest.unslotted

/-- The names of the `let`s without a slot in some statements, in order. -/
def Stmt.unslottedAll : List (Stmt Ref) → List String
  | [] => []
  | s :: ss => s.unslotted ++ Stmt.unslottedAll ss

end

/-! ### Where lowering fails -/

/-- Why there is no value. -/
def failure? {ε α : Type} : Except ε α → Option ε
  | .ok _ => none
  | .error e => some e

theorem failure?_eq_none {ε α : Type} {x : Except ε α} : failure? x = none ↔ ∃ a, x = .ok a := by
  cases x <;> simp [failure?]

theorem failure?_eq_some {ε α : Type} {x : Except ε α} {e : ε} :
    failure? x = some e ↔ x = .error e := by
  cases x <;> simp [failure?]

/-- What is made of a value does not fail. -/
theorem failure?_bind_pure {ε α β : Type} (x : Except ε α) (f : α → β) :
    failure? (x >>= fun a => pure (f a)) = failure? x := by
  cases x <;> rfl

/-- What is made of two values fails where the first one does, or else where the second does. -/
theorem failure?_bind_bind {ε α β γ : Type} (x : Except ε α) (y : Except ε β) (f : α → β → γ) :
    failure? (x >>= fun a => y >>= fun b => pure (f a b)) = (failure? x).or (failure? y) := by
  cases x with
  | error e => rfl
  | ok a => exact failure?_bind_pure y (f a)

mutual

/-- A statement is not lowered because of the first `let` without a slot in it. -/
theorem Stmt.failure?_lower : ∀ s : Stmt Ref,
    failure? s.lower = s.unslotted.head?.map Unslotted.mk
  | .choose arms => arms.failure?_lower
  | .loop _ body => by
    rw [Stmt.lower, failure?_bind_pure]
    exact Stmt.failure?_lowerAll body
  | .ret _ => rfl
  | .assign _ _ _ => rfl
  | .declare (.slot _) _ => rfl
  | .declare (.free _) _ => rfl
  | .run _ => rfl

theorem Arms.failure?_lower : ∀ arms : Arms Ref,
    failure? arms.lower = arms.unslotted.head?.map Unslotted.mk
  | .done => rfl
  | .otherwise body => Stmt.failure?_lowerAll body
  | .arm _ body rest => by
    rw [Arms.lower, failure?_bind_bind, Stmt.failure?_lowerAll body, rest.failure?_lower,
      Arms.unslotted, List.head?_append, Option.map_or]

theorem Stmt.failure?_lowerAll : ∀ ss : List (Stmt Ref),
    failure? (Stmt.lowerAll ss) = (Stmt.unslottedAll ss).head?.map Unslotted.mk
  | [] => rfl
  | s :: ss => by
    rw [Stmt.lowerAll, failure?_bind_bind, s.failure?_lower, Stmt.failure?_lowerAll ss,
      Stmt.unslottedAll, List.head?_append, Option.map_or]

end

/-- A statement whose `let`s all have slots has code. -/
theorem Stmt.lower_of_unslotted (s : Stmt Ref) (h : s.unslotted = []) :
    ∃ code, s.lower = .ok code := by
  rw [← failure?_eq_none, s.failure?_lower, h]
  rfl

theorem Stmt.lowerAll_of_unslotted (ss : List (Stmt Ref)) (h : Stmt.unslottedAll ss = []) :
    ∃ code, Stmt.lowerAll ss = .ok code := by
  rw [← failure?_eq_none, Stmt.failure?_lowerAll, h]
  rfl

/-! ### Resolving gives slots -/

theorem Program.resolve_value (p : Program String) :
    p.resolve.value = ⟨p.declarations.map fun d => d.resolve.value⟩ := by
  simp [Program.resolve, Function.comp_def]

mutual

/-- In a statement that was resolved all `let`s have slots. -/
theorem Stmt.unslotted_resolve : ∀ (s : Stmt String) (scope : Scope),
    (s.resolve scope).1.unslotted = []
  | .choose arms, scope => arms.unslotted_resolve scope
  | .loop _ body, scope => Stmt.unslottedAll_resolveAll body scope
  | .ret _, _ => rfl
  | .assign _ _ _, _ => rfl
  | .declare _ _, _ => rfl
  | .run _, _ => rfl

theorem Arms.unslotted_resolve : ∀ (arms : Arms String) (scope : Scope),
    (arms.resolve scope).1.unslotted = []
  | .done, _ => rfl
  | .otherwise body, scope => Stmt.unslottedAll_resolveAll body scope
  | .arm _ body rest, scope =>
    List.append_eq_nil_iff.mpr
      ⟨Stmt.unslottedAll_resolveAll body scope, rest.unslotted_resolve _⟩

theorem Stmt.unslottedAll_resolveAll : ∀ (ss : List (Stmt String)) (scope : Scope),
    Stmt.unslottedAll (Stmt.resolveAll scope ss).1 = []
  | [], _ => rfl
  | s :: ss, scope =>
    List.append_eq_nil_iff.mpr
      ⟨s.unslotted_resolve scope, Stmt.unslottedAll_resolveAll ss _⟩

end

theorem FunctionDef.parameters_resolve (f : FunctionDef String) :
    f.resolve.value.parameters = (List.range f.parameters.length).map .slot := by
  refine List.ext_getElem? fun i => ?_
  by_cases hi : i < f.parameters.length
  · simp [FunctionDef.resolve, hi]
  · simp [FunctionDef.resolve, Nat.le_of_not_lt hi]

/-- A declaration that was resolved has code. -/
theorem Declaration.lower_resolve (entry : String) (d : Declaration String) :
    ∃ code, d.resolve.value.lower entry = .ok code := by
  cases d with
  | load path => exact ⟨_, rfl⟩
  | global name => exact ⟨_, rfl⟩
  | define f =>
    have hf := Stmt.unslottedAll_resolveAll f.body f.parameters.reverse
    obtain ⟨body, hb⟩ := Stmt.lowerAll_of_unslotted _ hf
    exact ⟨_, FunctionDef.lower_eq_ok.mpr ⟨body, hb, rfl⟩⟩

/-- A program that was resolved has code. -/
theorem Program.lower_resolve (entry : String) (p : Program String) :
    ∃ code, (p.resolve.value.lower entry).value = .ok code := by
  obtain ⟨ds⟩ := p
  rw [Program.resolve_value, Program.lower]
  induction ds with
  | nil => exact ⟨_, rfl⟩
  | cons d ds ih =>
    obtain ⟨part, hpart⟩ := d.lower_resolve entry
    obtain ⟨more, hmore⟩ := ih
    exact ⟨_, Declaration.lowerAll_cons_eq_ok.mpr ⟨part, more, hpart, hmore, rfl⟩⟩

end StackScript
