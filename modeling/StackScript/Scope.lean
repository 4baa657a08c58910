/-
# Scopes

In a function the parameters are bound first, in order, and every `let` binds a name from the
statement after it on, whatever braces it stands in. Each binding takes the next slot, also for
a name that is bound already, and a name refers to its last binding. A name without a binding
is free.

A scope is the list of the names bound so far, last first, so the slot of a name is the number
of names bound before it.

Key definitions: `Scope.slot?`, `Scope.ref`, `Stmt.resolve`, `Program.resolve`.
-/
import StackScript.Log
import StackScript.Tree

namespace StackScript

/-- The names bound so far, last first. -/
abbrev Scope := List String

namespace Scope

/-- The slot of the last binding of a name. -/
def slot? : Scope → String → Option Nat
  | [], _ => none
  | bound :: scope, name => if bound = name then some scope.length else slot? scope name

/-- What a name refers to. -/
def ref (scope : Scope) (name : String) : Ref :=
  match scope.slot? name with
  | some slot => .slot slot
  | none => .free name

/-- The report of all bindings, in the order in which they were made. -/
def events (scope : Scope) : List Event :=
  scope.reverse.mapIdx fun slot name => .slotTaken name slot

end Scope

section Names

variable {ν μ : Type}

mutual

/-- Applies a function to every name. -/
def Expr.map (f : ν → μ) : Expr ν → Expr μ
  | .null => .null
  | .boolean value => .boolean value
  | .integer value => .integer value
  | .string value => .string value
  | .list elements => .list (Expr.mapAll f elements)
  | .name n => .name (f n)
  | .binary op left right => .binary op (left.map f) (right.map f)
  | .unary op operand => .unary op (operand.map f)
  | .index collection key => .index (collection.map f) (key.map f)
  | .call callee arguments => .call (callee.map f) (Expr.mapAll f arguments)

/-- Applies a function to every name of some expressions. -/
def Expr.mapAll (f : ν → μ) : List (Expr ν) → List (Expr μ)
  | [] => []
  | e :: es => e.map f :: Expr.mapAll f es

end

end Names

mutual

/-- Resolves a statement, and gives the scope after it. -/
def Stmt.resolve (scope : Scope) : Stmt String → Stmt Ref × Scope
  | .choose arms =>
    let (arms, scope) := arms.resolve scope
    (.choose arms, scope)
  | .loop condition body =>
    let (body, after) := Stmt.resolveAll scope body
    (.loop (condition.map scope.ref) body, after)
  | .ret value => (.ret (value.map scope.ref), scope)
  | .assign target indices value =>
    (.assign (scope.ref target) (Expr.mapAll scope.ref indices) (value.map scope.ref), scope)
  | .declare name initializer =>
    (.declare (.slot scope.length) (initializer.map scope.ref), name :: scope)
  | .run value => (.run (value.map scope.ref), scope)

/-- Resolves the arms of an `if`, one after the other. -/
def Arms.resolve (scope : Scope) : Arms String → Arms Ref × Scope
  | .done => (.done, scope)
  | .otherwise body =>
    let (body, after) := Stmt.resolveAll scope body
    (.otherwise body, after)
  | .arm condition body rest =>
    let (body, between) := Stmt.resolveAll scope body
    let (rest, after) := rest.resolve between
    (.arm (condition.map scope.ref) body rest, after)

/-- Resolves statements, one after the other. -/
def Stmt.resolveAll (scope : Scope) : List (Stmt String) → List (Stmt Ref) × Scope
  | [] => ([], scope)
  | s :: ss =>
    let (s, between) := s.resolve scope
    let (ss, after) := Stmt.resolveAll between ss
    (s :: ss, after)

end

/-- Resolves a function: its parameters have the first slots. -/
def FunctionDef.resolve (f : FunctionDef String) : Logged (FunctionDef Ref) :=
  let (body, scope) := Stmt.resolveAll f.parameters.reverse f.body
  { log := Scope.events scope ++ [.functionResolved f.name scope.length]
    value := ⟨f.name, f.parameters.mapIdx fun slot _ => .slot slot, body⟩ }

/-- Resolves a declaration. -/
def Declaration.resolve : Declaration String → Logged (Declaration Ref)
  | .load path => ⟨[], .load path⟩
  | .global name => ⟨[], .global name⟩
  | .define f => ⟨f.resolve.log, .define f.resolve.value⟩

/-- Resolves a program. -/
def Program.resolve (p : Program String) : Logged (Program Ref) :=
  let ds := p.declarations.map Declaration.resolve
  ⟨ds.flatMap Logged.log, ⟨ds.map Logged.value⟩⟩

end StackScript
