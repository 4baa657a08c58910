/-
# The scoping rule

What a name refers to, said by where it stands and without a scope that is passed along. The
bindings of a function are its parameters and then the names of all its `let`s, in the order of
the source and at any depth. A place in the body comes after the first `m` of them: all the
parameters and every `let` before the place, where a `let` binds only after its initializer. A
name that is used there refers to the last of these `m` bindings that has the name, and is free
if there is none. The binding with the number `k` has the slot `k`.

The places of a body where names stand are listed by `Stmt.occurrences`, for names of any type. A
tree is known from its shape, which is the tree with all names blotted out, and this list
(`Stmt.eq_of_shape`). So the rule fixes one resolved function, and it is the one that resolving
gives. The names of the source can be put back in it.

Key definitions: `Occurrence`, `Stmt.occurrences`, `Occurrence.Becomes`, `FunctionDef.Scoped`.
Key theorems: `Stmt.eq_of_shape`, `Scope.becomes_ref`, `FunctionDef.scoped_resolve`,
`resolve_eq_iff_scoped`.
-/
import Mathlib.Data.List.Forall2
import StackScript.Scope

namespace StackScript

variable {ν μ κ : Type}

/-! ### Where names stand -/

/-- A place where a name stands. -/
inductive Occurrence (ν : Type) where
  /-- The name is looked up, for its value or to store one. -/
  | use (name : ν)
  /-- A `let` binds the name. -/
  | bind (name : ν)
  deriving DecidableEq, Repr

namespace Occurrence

/-- Applies a function to the name. -/
def map (f : ν → μ) : Occurrence ν → Occurrence μ
  | use n => use (f n)
  | bind n => bind (f n)

/-- The name, if it is bound here. -/
def bound? : Occurrence ν → Option ν
  | use _ => none
  | bind n => some n

/-- The names that are bound, in order. -/
def bound (os : List (Occurrence ν)) : List ν := os.filterMap bound?

@[simp] theorem bound_nil : bound ([] : List (Occurrence ν)) = [] := rfl

@[simp] theorem bound_use (n : ν) (os : List (Occurrence ν)) : bound (use n :: os) = bound os := rfl

@[simp] theorem bound_bind (n : ν) (os : List (Occurrence ν)) :
    bound (bind n :: os) = n :: bound os := rfl

@[simp] theorem bound_append (a b : List (Occurrence ν)) : bound (a ++ b) = bound a ++ bound b :=
  List.filterMap_append

end Occurrence

mutual

/-- The places of the names in an expression, in order. -/
def Expr.occurrences : Expr ν → List (Occurrence ν)
  | .null | .boolean _ | .integer _ | .string _ => []
  | .list elements => Expr.occurrencesAll elements
  | .name n => [.use n]
  | .binary _ left right => left.occurrences ++ right.occurrences
  | .unary _ operand => operand.occurrences
  | .index collection key => collection.occurrences ++ key.occurrences
  | .call callee arguments => callee.occurrences ++ Expr.occurrencesAll arguments

/-- The places of the names in some expressions, in order. -/
def Expr.occurrencesAll : List (Expr ν) → List (Occurrence ν)
  | [] => []
  | e :: es => e.occurrences ++ Expr.occurrencesAll es

end

mutual

/-- The places of the names in a statement, in order. A `let` binds after its initializer. -/
def Stmt.occurrences : Stmt ν → List (Occurrence ν)
  | .choose arms => arms.occurrences
  | .loop condition body => condition.occurrences ++ Stmt.occurrencesAll body
  | .ret value => value.occurrences
  | .assign target indices value =>
    .use target :: (Expr.occurrencesAll indices ++ value.occurrences)
  | .declare name initializer => initializer.occurrences ++ [.bind name]
  | .run value => value.occurrences

/-- The places of the names in the arms of an `if`, in order. -/
def Arms.occurrences : Arms ν → List (Occurrence ν)
  | .done => []
  | .otherwise body => Stmt.occurrencesAll body
  | .arm condition body rest =>
    condition.occurrences ++ (Stmt.occurrencesAll body ++ rest.occurrences)

/-- The places of the names in some statements, in order. -/
def Stmt.occurrencesAll : List (Stmt ν) → List (Occurrence ν)
  | [] => []
  | s :: ss => s.occurrences ++ Stmt.occurrencesAll ss

end

mutual

/-- Applies a function to every name. -/
def Stmt.map (f : ν → μ) : Stmt ν → Stmt μ
  | .choose arms => .choose (arms.map f)
  | .loop condition body => .loop (condition.map f) (Stmt.mapAll f body)
  | .ret value => .ret (value.map f)
  | .assign target indices value => .assign (f target) (Expr.mapAll f indices) (value.map f)
  | .declare name initializer => .declare (f name) (initializer.map f)
  | .run value => .run (value.map f)

/-- Applies a function to every name of the arms of an `if`. -/
def Arms.map (f : ν → μ) : Arms ν → Arms μ
  | .done => .done
  | .otherwise body => .otherwise (Stmt.mapAll f body)
  | .arm condition body rest => .arm (condition.map f) (Stmt.mapAll f body) (rest.map f)

/-- Applies a function to every name of some statements. -/
def Stmt.mapAll (f : ν → μ) : List (Stmt ν) → List (Stmt μ)
  | [] => []
  | s :: ss => s.map f :: Stmt.mapAll f ss

end

/-- Applies a function to every name of the parameters and the body. The name of the function
itself stays. -/
def FunctionDef.map (f : ν → μ) (fn : FunctionDef ν) : FunctionDef μ :=
  ⟨fn.name, fn.parameters.map f, Stmt.mapAll f fn.body⟩

/-- Blots a name out. -/
def blot : ν → Unit := fun _ => ()

/-! ### Names that are replaced -/

mutual

theorem Expr.occurrences_map (f : ν → μ) : ∀ e : Expr ν,
    (e.map f).occurrences = e.occurrences.map (Occurrence.map f)
  | .null | .boolean _ | .integer _ | .string _ | .name _ => rfl
  | .list elements => Expr.occurrencesAll_mapAll f elements
  | .binary _ left right => by
    simp [Expr.map, Expr.occurrences, left.occurrences_map f, right.occurrences_map f]
  | .unary _ operand => operand.occurrences_map f
  | .index collection key => by
    simp [Expr.map, Expr.occurrences, collection.occurrences_map f, key.occurrences_map f]
  | .call callee arguments => by
    simp [Expr.map, Expr.occurrences, callee.occurrences_map f,
      Expr.occurrencesAll_mapAll f arguments]

theorem Expr.occurrencesAll_mapAll (f : ν → μ) : ∀ es : List (Expr ν),
    Expr.occurrencesAll (Expr.mapAll f es) = (Expr.occurrencesAll es).map (Occurrence.map f)
  | [] => rfl
  | e :: es => by
    simp [Expr.mapAll, Expr.occurrencesAll, e.occurrences_map f, Expr.occurrencesAll_mapAll f es]

end

mutual

theorem Stmt.occurrences_map (f : ν → μ) : ∀ s : Stmt ν,
    (s.map f).occurrences = s.occurrences.map (Occurrence.map f)
  | .choose arms => arms.occurrences_map f
  | .loop condition body => by
    simp [Stmt.map, Stmt.occurrences, condition.occurrences_map f,
      Stmt.occurrencesAll_mapAll f body]
  | .ret value => value.occurrences_map f
  | .assign target indices value => by
    simp [Stmt.map, Stmt.occurrences, Occurrence.map, Expr.occurrencesAll_mapAll f indices,
      value.occurrences_map f]
  | .declare name initializer => by
    simp [Stmt.map, Stmt.occurrences, Occurrence.map, initializer.occurrences_map f]
  | .run value => value.occurrences_map f

theorem Arms.occurrences_map (f : ν → μ) : ∀ arms : Arms ν,
    (arms.map f).occurrences = arms.occurrences.map (Occurrence.map f)
  | .done => rfl
  | .otherwise body => Stmt.occurrencesAll_mapAll f body
  | .arm condition body rest => by
    simp [Arms.map, Arms.occurrences, condition.occurrences_map f,
      Stmt.occurrencesAll_mapAll f body, rest.occurrences_map f]

theorem Stmt.occurrencesAll_mapAll (f : ν → μ) : ∀ ss : List (Stmt ν),
    Stmt.occurrencesAll (Stmt.mapAll f ss) = (Stmt.occurrencesAll ss).map (Occurrence.map f)
  | [] => rfl
  | s :: ss => by
    simp [Stmt.mapAll, Stmt.occurrencesAll, s.occurrences_map f, Stmt.occurrencesAll_mapAll f ss]

end

mutual

theorem Expr.map_map (f : ν → μ) (g : μ → κ) : ∀ e : Expr ν, (e.map f).map g = e.map (g ∘ f)
  | .null | .boolean _ | .integer _ | .string _ | .name _ => rfl
  | .list elements => congrArg Expr.list (Expr.mapAll_mapAll f g elements)
  | .binary _ left right => by simp [Expr.map, left.map_map f g, right.map_map f g]
  | .unary _ operand => by simp [Expr.map, operand.map_map f g]
  | .index collection key => by simp [Expr.map, collection.map_map f g, key.map_map f g]
  | .call callee arguments => by
    simp [Expr.map, callee.map_map f g, Expr.mapAll_mapAll f g arguments]

theorem Expr.mapAll_mapAll (f : ν → μ) (g : μ → κ) : ∀ es : List (Expr ν),
    Expr.mapAll g (Expr.mapAll f es) = Expr.mapAll (g ∘ f) es
  | [] => rfl
  | e :: es => by simp [Expr.mapAll, e.map_map f g, Expr.mapAll_mapAll f g es]

end

mutual

theorem Stmt.map_map (f : ν → μ) (g : μ → κ) : ∀ s : Stmt ν, (s.map f).map g = s.map (g ∘ f)
  | .choose arms => congrArg Stmt.choose (arms.map_map f g)
  | .loop condition body => by
    simp [Stmt.map, condition.map_map f g, Stmt.mapAll_mapAll f g body]
  | .ret value => congrArg Stmt.ret (value.map_map f g)
  | .assign _ indices value => by
    simp [Stmt.map, Expr.mapAll_mapAll f g indices, value.map_map f g]
  | .declare _ initializer => by simp [Stmt.map, initializer.map_map f g]
  | .run value => congrArg Stmt.run (value.map_map f g)

theorem Arms.map_map (f : ν → μ) (g : μ → κ) : ∀ arms : Arms ν,
    (arms.map f).map g = arms.map (g ∘ f)
  | .done => rfl
  | .otherwise body => congrArg Arms.otherwise (Stmt.mapAll_mapAll f g body)
  | .arm condition body rest => by
    simp [Arms.map, condition.map_map f g, Stmt.mapAll_mapAll f g body, rest.map_map f g]

theorem Stmt.mapAll_mapAll (f : ν → μ) (g : μ → κ) : ∀ ss : List (Stmt ν),
    Stmt.mapAll g (Stmt.mapAll f ss) = Stmt.mapAll (g ∘ f) ss
  | [] => rfl
  | s :: ss => by simp [Stmt.mapAll, s.map_map f g, Stmt.mapAll_mapAll f g ss]

end

theorem FunctionDef.map_map (f : ν → μ) (g : μ → κ) (fn : FunctionDef ν) :
    (fn.map f).map g = fn.map (g ∘ f) := by
  simp [FunctionDef.map, Stmt.mapAll_mapAll f g]

/-! ### A tree is its shape and its names

The induction is on one of the trees, with other places after those of both: what is left of the
two lists after the first parts of the trees is then compared with the parts that follow. -/

mutual

theorem Expr.eq_of_shape : ∀ {e e' : Expr ν} {a b : List (Occurrence ν)},
    e.map blot = e'.map blot → e.occurrences ++ a = e'.occurrences ++ b → e = e' ∧ a = b
  | .null, e', a, b, h, ho => by
    cases e' <;> simp_all [Expr.map, Expr.occurrences]
  | .boolean _, e', a, b, h, ho => by
    cases e' <;> simp_all [Expr.map, Expr.occurrences]
  | .integer _, e', a, b, h, ho => by
    cases e' <;> simp_all [Expr.map, Expr.occurrences]
  | .string _, e', a, b, h, ho => by
    cases e' <;> simp_all [Expr.map, Expr.occurrences]
  | .name _, e', a, b, h, ho => by
    cases e' <;> simp_all [Expr.map, Expr.occurrences]
  | .list elements, e', a, b, h, ho => by
    cases e' <;> simp only [Expr.map, reduceCtorEq, Expr.list.injEq] at h
    obtain ⟨rfl, hab⟩ := Expr.allEq_of_shape h ho
    exact ⟨rfl, hab⟩
  | .binary op left right, e', a, b, h, ho => by
    cases e' <;> simp only [Expr.map, reduceCtorEq, Expr.binary.injEq] at h
    obtain ⟨rfl, hl, hr⟩ := h
    simp only [Expr.occurrences, List.append_assoc] at ho
    obtain ⟨rfl, ho₁⟩ := Expr.eq_of_shape hl ho
    obtain ⟨rfl, hab⟩ := Expr.eq_of_shape hr ho₁
    exact ⟨rfl, hab⟩
  | .unary op operand, e', a, b, h, ho => by
    cases e' <;> simp only [Expr.map, reduceCtorEq, Expr.unary.injEq] at h
    obtain ⟨rfl, hx⟩ := h
    obtain ⟨rfl, hab⟩ := Expr.eq_of_shape hx ho
    exact ⟨rfl, hab⟩
  | .index collection key, e', a, b, h, ho => by
    cases e' <;> simp only [Expr.map, reduceCtorEq, Expr.index.injEq] at h
    obtain ⟨hc, hk⟩ := h
    simp only [Expr.occurrences, List.append_assoc] at ho
    obtain ⟨rfl, ho₁⟩ := Expr.eq_of_shape hc ho
    obtain ⟨rfl, hab⟩ := Expr.eq_of_shape hk ho₁
    exact ⟨rfl, hab⟩
  | .call callee arguments, e', a, b, h, ho => by
    cases e' <;> simp only [Expr.map, reduceCtorEq, Expr.call.injEq] at h
    obtain ⟨hc, hs⟩ := h
    simp only [Expr.occurrences, List.append_assoc] at ho
    obtain ⟨rfl, ho₁⟩ := Expr.eq_of_shape hc ho
    obtain ⟨rfl, hab⟩ := Expr.allEq_of_shape hs ho₁
    exact ⟨rfl, hab⟩

theorem Expr.allEq_of_shape : ∀ {es es' : List (Expr ν)} {a b : List (Occurrence ν)},
    Expr.mapAll blot es = Expr.mapAll blot es' →
    Expr.occurrencesAll es ++ a = Expr.occurrencesAll es' ++ b → es = es' ∧ a = b
  | [], es', a, b, h, ho => by
    cases es' <;> simp_all [Expr.mapAll, Expr.occurrencesAll]
  | e :: es, es', a, b, h, ho => by
    cases es' <;> simp only [Expr.mapAll, reduceCtorEq, List.cons.injEq] at h
    obtain ⟨he, hs⟩ := h
    simp only [Expr.occurrencesAll, List.append_assoc] at ho
    obtain ⟨rfl, ho₁⟩ := Expr.eq_of_shape he ho
    obtain ⟨rfl, hab⟩ := Expr.allEq_of_shape hs ho₁
    exact ⟨rfl, hab⟩

end

mutual

theorem Stmt.eq_of_shape : ∀ {s s' : Stmt ν} {a b : List (Occurrence ν)},
    s.map blot = s'.map blot → s.occurrences ++ a = s'.occurrences ++ b → s = s' ∧ a = b
  | .choose arms, s', a, b, h, ho => by
    cases s' <;> simp only [Stmt.map, reduceCtorEq, Stmt.choose.injEq] at h
    obtain ⟨rfl, hab⟩ := Arms.eq_of_shape h ho
    exact ⟨rfl, hab⟩
  | .loop condition body, s', a, b, h, ho => by
    cases s' <;> simp only [Stmt.map, reduceCtorEq, Stmt.loop.injEq] at h
    obtain ⟨hc, hb⟩ := h
    simp only [Stmt.occurrences, List.append_assoc] at ho
    obtain ⟨rfl, ho₁⟩ := Expr.eq_of_shape hc ho
    obtain ⟨rfl, hab⟩ := Stmt.allEq_of_shape hb ho₁
    exact ⟨rfl, hab⟩
  | .ret value, s', a, b, h, ho => by
    cases s' <;> simp only [Stmt.map, reduceCtorEq, Stmt.ret.injEq] at h
    obtain ⟨rfl, hab⟩ := Expr.eq_of_shape h ho
    exact ⟨rfl, hab⟩
  | .assign target indices value, s', a, b, h, ho => by
    cases s' <;> simp only [Stmt.map, reduceCtorEq, Stmt.assign.injEq] at h
    obtain ⟨-, hi, hv⟩ := h
    simp only [Stmt.occurrences, List.cons_append, List.append_assoc, List.cons.injEq,
      Occurrence.use.injEq] at ho
    obtain ⟨rfl, ho₀⟩ := ho
    obtain ⟨rfl, ho₁⟩ := Expr.allEq_of_shape hi ho₀
    obtain ⟨rfl, hab⟩ := Expr.eq_of_shape hv ho₁
    exact ⟨rfl, hab⟩
  | .declare name initializer, s', a, b, h, ho => by
    cases s' <;> simp only [Stmt.map, reduceCtorEq, Stmt.declare.injEq] at h
    simp only [Stmt.occurrences, List.append_assoc] at ho
    obtain ⟨rfl, ho₁⟩ := Expr.eq_of_shape h.2 ho
    simp only [List.cons_append, List.nil_append, List.cons.injEq, Occurrence.bind.injEq] at ho₁
    obtain ⟨rfl, hab⟩ := ho₁
    exact ⟨rfl, hab⟩
  | .run value, s', a, b, h, ho => by
    cases s' <;> simp only [Stmt.map, reduceCtorEq, Stmt.run.injEq] at h
    obtain ⟨rfl, hab⟩ := Expr.eq_of_shape h ho
    exact ⟨rfl, hab⟩

theorem Arms.eq_of_shape : ∀ {arms arms' : Arms ν} {a b : List (Occurrence ν)},
    arms.map blot = arms'.map blot → arms.occurrences ++ a = arms'.occurrences ++ b →
    arms = arms' ∧ a = b
  | .done, arms', a, b, h, ho => by
    cases arms' <;> simp_all [Arms.map, Arms.occurrences]
  | .otherwise body, arms', a, b, h, ho => by
    cases arms' <;> simp only [Arms.map, reduceCtorEq, Arms.otherwise.injEq] at h
    obtain ⟨rfl, hab⟩ := Stmt.allEq_of_shape h ho
    exact ⟨rfl, hab⟩
  | .arm condition body rest, arms', a, b, h, ho => by
    cases arms' <;> simp only [Arms.map, reduceCtorEq, Arms.arm.injEq] at h
    obtain ⟨hc, hb, hr⟩ := h
    simp only [Arms.occurrences, List.append_assoc] at ho
    obtain ⟨rfl, ho₁⟩ := Expr.eq_of_shape hc ho
    obtain ⟨rfl, ho₂⟩ := Stmt.allEq_of_shape hb ho₁
    obtain ⟨rfl, hab⟩ := Arms.eq_of_shape hr ho₂
    exact ⟨rfl, hab⟩

theorem Stmt.allEq_of_shape : ∀ {ss ss' : List (Stmt ν)} {a b : List (Occurrence ν)},
    Stmt.mapAll blot ss = Stmt.mapAll blot ss' →
    Stmt.occurrencesAll ss ++ a = Stmt.occurrencesAll ss' ++ b → ss = ss' ∧ a = b
  | [], ss', a, b, h, ho => by
    cases ss' <;> simp_all [Stmt.mapAll, Stmt.occurrencesAll]
  | s :: ss, ss', a, b, h, ho => by
    cases ss' <;> simp only [Stmt.mapAll, reduceCtorEq, List.cons.injEq] at h
    obtain ⟨hs, hss⟩ := h
    simp only [Stmt.occurrencesAll, List.append_assoc] at ho
    obtain ⟨rfl, ho₁⟩ := Stmt.eq_of_shape hs ho
    obtain ⟨rfl, hab⟩ := Stmt.allEq_of_shape hss ho₁
    exact ⟨rfl, hab⟩

end

/-- Functions of the same shape, with the same parameters and the same names in their bodies. -/
theorem FunctionDef.eq_of_shape {f g : FunctionDef ν} (h : f.map blot = g.map blot)
    (hp : f.parameters = g.parameters)
    (ho : Stmt.occurrencesAll f.body = Stmt.occurrencesAll g.body) : f = g := by
  obtain ⟨name, parameters, body⟩ := f
  obtain ⟨name', parameters', body'⟩ := g
  simp only [FunctionDef.map, FunctionDef.mk.injEq] at h hp ho
  obtain ⟨rfl, -, hb⟩ := h
  have ho' : Stmt.occurrencesAll body ++ [] = Stmt.occurrencesAll body' ++ [] := by rw [ho]
  obtain ⟨rfl, -⟩ := Stmt.allEq_of_shape hb ho'
  rw [hp]

/-! ### The rule -/

/-- What a place becomes that comes after the first `m` of the bindings `B`. -/
inductive Occurrence.Becomes (B : List String) (m : Nat) : Occurrence String → Occurrence Ref → Prop
  /-- A binding takes the next slot. -/
  | bind {n} : Becomes B m (.bind n) (.bind (.slot m))
  /-- A name refers to its last binding. -/
  | last {n k} : k < m → B[k]? = some n → (∀ j, k < j → j < m → B[j]? ≠ some n) →
      Becomes B m (.use n) (.use (.slot k))
  /-- A name without a binding is free. -/
  | free {n} : (∀ j, j < m → B[j]? ≠ some n) → Becomes B m (.use n) (.use (.free n))

/-- All bindings of a function: the parameters, then the `let`s in the order of the source. -/
def FunctionDef.bindings (f : FunctionDef String) : List String :=
  f.parameters ++ Occurrence.bound (Stmt.occurrencesAll f.body)

/-- The function `g` is `f` with slots and free names by the rule. -/
structure FunctionDef.Scoped (f : FunctionDef String) (g : FunctionDef Ref) : Prop where
  /-- Nothing but names differs. -/
  shape : g.map blot = f.map blot
  /-- The parameters have the first slots. -/
  parameters : ∀ i, i < f.parameters.length → g.parameters[i]? = some (.slot i)
  /-- The bindings before a place are the parameters and the `let`s before it. -/
  occurrences : ∀ before o after, Stmt.occurrencesAll f.body = before ++ o :: after →
    ∃ o', (Stmt.occurrencesAll g.body)[before.length]? = some o' ∧
      o.Becomes f.bindings (f.parameters.length + (Occurrence.bound before).length) o'

/-- The same of declarations: imports and globals are as they were. -/
inductive Declaration.Scoped : Declaration String → Declaration Ref → Prop
  | load {path} : Scoped (.load path) (.load path)
  | global {name} : Scoped (.global name) (.global name)
  | define {f g} : f.Scoped g → Scoped (.define f) (.define g)

/-- The same of programs, declaration by declaration. -/
def Program.Scoped (p : Program String) (q : Program Ref) : Prop :=
  List.Forall₂ Declaration.Scoped p.declarations q.declarations

/-- The name behind a reference, in a function with the bindings `B`. -/
def Ref.spelling? (B : List String) : Ref → Option String
  | .slot k => B[k]?
  | .free n => some n

/-- The rule allows one thing at each place. -/
theorem Occurrence.Becomes.unique {B : List String} {m : Nat} {o : Occurrence String}
    {r r' : Occurrence Ref} (h : o.Becomes B m r) (h' : o.Becomes B m r') : r = r' := by
  cases h with
  | bind => cases h'; rfl
  | @last n k hk hn hlast =>
    cases h' with
    | @last _ k' hk' hn' hlast' =>
      rcases Nat.lt_trichotomy k k' with hlt | rfl | hlt
      · exact absurd hn' (hlast k' hlt hk')
      · rfl
      · exact absurd hn (hlast' k hlt hk)
    | free hnone => exact absurd hn (hnone k hk)
  | free hnone =>
    cases h' with
    | @last _ k' hk' hn' _ => exact absurd hn' (hnone k' hk')
    | free _ => rfl

namespace FunctionDef.Scoped

variable {f : FunctionDef String} {g g' : FunctionDef Ref}

theorem length_parameters (h : f.Scoped g) : g.parameters.length = f.parameters.length := by
  have hp := congrArg (fun fn => fn.parameters.length) h.shape
  simpa [FunctionDef.map] using hp

theorem length_occurrences (h : f.Scoped g) :
    (Stmt.occurrencesAll g.body).length = (Stmt.occurrencesAll f.body).length := by
  have ho := congrArg (fun fn => (Stmt.occurrencesAll fn.body).length) h.shape
  simpa [FunctionDef.map, Stmt.occurrencesAll_mapAll] using ho

/-- What the place with the number `i` becomes. -/
theorem get (h : f.Scoped g) {i : Nat} {o : Occurrence String}
    (hi : (Stmt.occurrencesAll f.body)[i]? = some o) :
    ∃ o', (Stmt.occurrencesAll g.body)[i]? = some o' ∧ o.Becomes f.bindings
      (f.parameters.length + (Occurrence.bound ((Stmt.occurrencesAll f.body).take i)).length)
      o' := by
  obtain ⟨hlt, rfl⟩ := List.getElem?_eq_some_iff.mp hi
  have hsplit := (List.take_append_drop i (Stmt.occurrencesAll f.body)).symm
  rw [List.drop_eq_getElem_cons hlt] at hsplit
  have ho := h.occurrences _ _ _ hsplit
  rwa [List.length_take, Nat.min_eq_left (Nat.le_of_lt hlt)] at ho

/-- The rule fixes the whole function. -/
theorem unique (h : f.Scoped g) (h' : f.Scoped g') : g = g' := by
  refine FunctionDef.eq_of_shape (h.shape.trans h'.shape.symm) ?_ ?_
  · refine List.ext_getElem? fun i => ?_
    by_cases hi : i < f.parameters.length
    · rw [h.parameters i hi, h'.parameters i hi]
    · have hg : g.parameters.length ≤ i := by rw [h.length_parameters]; omega
      have hg' : g'.parameters.length ≤ i := by rw [h'.length_parameters]; omega
      rw [List.getElem?_eq_none hg, List.getElem?_eq_none hg']
  · refine List.ext_getElem? fun i => ?_
    cases hi : (Stmt.occurrencesAll f.body)[i]? with
    | some o =>
      obtain ⟨r, hr, hb⟩ := h.get hi
      obtain ⟨r', hr', hb'⟩ := h'.get hi
      rw [hr, hr', hb.unique hb']
    | none =>
      have hle := List.getElem?_eq_none_iff.mp hi
      rw [List.getElem?_eq_none (h.length_occurrences ▸ hle),
        List.getElem?_eq_none (h'.length_occurrences ▸ hle)]

/-- The names of the source can be put back: the rule says which name stood at each place. -/
theorem map_spelling? (h : f.Scoped g) : g.map (Ref.spelling? f.bindings) = f.map some := by
  refine FunctionDef.eq_of_shape ?_ ?_ ?_
  · rw [FunctionDef.map_map, FunctionDef.map_map]
    exact h.shape
  · refine List.ext_getElem? fun i => ?_
    simp only [FunctionDef.map, List.getElem?_map]
    by_cases hi : i < f.parameters.length
    · have hB : f.bindings[i]? = f.parameters[i]? := List.getElem?_append_left hi
      rw [h.parameters i hi]
      simp [Ref.spelling?, hB, hi]
    · have hg : g.parameters.length ≤ i := by rw [h.length_parameters]; omega
      rw [List.getElem?_eq_none hg, List.getElem?_eq_none (by omega)]
      rfl
  · simp only [FunctionDef.map, Stmt.occurrencesAll_mapAll]
    refine List.ext_getElem? fun i => ?_
    rw [List.getElem?_map, List.getElem?_map]
    cases hi : (Stmt.occurrencesAll f.body)[i]? with
    | none =>
      have hle := List.getElem?_eq_none_iff.mp hi
      rw [List.getElem?_eq_none (h.length_occurrences ▸ hle)]
      rfl
    | some o =>
      obtain ⟨r, hr, hb⟩ := h.get hi
      rw [hr, Option.map_some, Option.map_some, Option.some.injEq]
      cases hb with
      | last _ hn _ => exact congrArg Occurrence.use hn
      | free _ => rfl
      | @bind n =>
        obtain ⟨hlt, hget⟩ := List.getElem?_eq_some_iff.mp hi
        have hsplit := (List.take_append_drop i (Stmt.occurrencesAll f.body)).symm
        rw [List.drop_eq_getElem_cons hlt, hget] at hsplit
        have hB := congrArg (fun os => f.parameters ++ Occurrence.bound os) hsplit
        simp only [Occurrence.bound_append, Occurrence.bound_bind, ← List.append_assoc] at hB
        refine congrArg Occurrence.bind ?_
        rw [Ref.spelling?, FunctionDef.bindings, hB, ← List.length_append]
        simp

end FunctionDef.Scoped

/-! ### Resolving follows the rule -/

namespace Occurrence

/-- What the places become one after the other, where each binding is added to the scope. -/
def resolveAll (scope : Scope) : List (Occurrence String) → List (Occurrence Ref)
  | [] => []
  | use n :: os => use (scope.ref n) :: resolveAll scope os
  | bind n :: os => bind (.slot scope.length) :: resolveAll (n :: scope) os

theorem resolveAll_append (scope : Scope) (a b : List (Occurrence String)) :
    resolveAll scope (a ++ b) =
      resolveAll scope a ++ resolveAll ((bound a).reverse ++ scope) b := by
  induction a generalizing scope with
  | nil => rfl
  | cons o a ih => cases o <;> simp [resolveAll, ih]

theorem length_resolveAll (scope : Scope) (os : List (Occurrence String)) :
    (resolveAll scope os).length = os.length := by
  induction os generalizing scope with
  | nil => rfl
  | cons o os ih => cases o <;> simp [resolveAll, ih]

end Occurrence

/-- A scope refers to the last binding of a name. -/
theorem Scope.becomes_ref (scope : Scope) {B : List String} (hB : scope.reverse <+: B)
    (n : String) : (Occurrence.use n).Becomes B scope.length (.use (scope.ref n)) := by
  induction scope with
  | nil => exact .free fun j hj => absurd hj (Nat.not_lt_zero j)
  | cons top scope ih =>
    rw [List.reverse_cons] at hB
    have htop : B[scope.length]? = some top := by
      obtain ⟨post, rfl⟩ := hB
      simp
    have ih := ih ((List.prefix_append _ _).trans hB)
    by_cases h : top = n
    · have hr : Scope.ref (top :: scope) n = .slot scope.length := by
        simp [Scope.ref, Scope.slot?, h]
      rw [hr]
      exact .last (Nat.lt_succ_self _) (h ▸ htop) fun j hj hj' => by
        simp only [List.length_cons] at hj'
        omega
    · have hr : Scope.ref (top :: scope) n = Scope.ref scope n := by
        simp [Scope.ref, Scope.slot?, h]
      have hne : B[scope.length]? ≠ some n := by simpa [htop] using h
      rw [hr]
      -- the new binding is none of `n`, so what held before it still holds after it
      generalize Scope.ref scope n = r at ih ⊢
      cases ih with
      | last hk hn hlast =>
        refine .last (Nat.lt_succ_of_lt hk) hn fun j hj hj' => ?_
        rcases Nat.lt_succ_iff_lt_or_eq.mp hj' with hlt | rfl
        · exact hlast j hj hlt
        · exact hne
      | free hnone =>
        refine .free fun j hj => ?_
        rcases Nat.lt_succ_iff_lt_or_eq.mp hj with hlt | rfl
        · exact hnone j hlt
        · exact hne

/-- So a place becomes what the rule says, after the bindings of the scope and of the places
before it. -/
theorem Occurrence.becomes_resolveAll {scope : Scope} {before after : List (Occurrence String)}
    {o : Occurrence String} {B : List String}
    (hB : scope.reverse ++ bound before <+: B) :
    ∃ o', (resolveAll scope (before ++ o :: after))[before.length]? = some o' ∧
      o.Becomes B (scope.length + (bound before).length) o' := by
  have hlen := length_resolveAll scope before
  rw [resolveAll_append, List.getElem?_append_right (Nat.le_of_eq hlen), hlen, Nat.sub_self]
  have hscope : ((bound before).reverse ++ scope).reverse <+: B := by simpa using hB
  have hcount : ((bound before).reverse ++ scope).length =
      scope.length + (bound before).length := by
    simp [Nat.add_comm]
  cases o with
  | use n => exact ⟨_, rfl, hcount ▸ Scope.becomes_ref _ hscope n⟩
  | bind n => exact ⟨_, rfl, hcount ▸ .bind⟩

mutual

/-- In an expression nothing is bound. -/
theorem Expr.bound_occurrences : ∀ e : Expr ν, Occurrence.bound e.occurrences = []
  | .null | .boolean _ | .integer _ | .string _ | .name _ => rfl
  | .list elements => Expr.bound_occurrencesAll elements
  | .binary _ left right => by
    simp [Expr.occurrences, left.bound_occurrences, right.bound_occurrences]
  | .unary _ operand => operand.bound_occurrences
  | .index collection key => by
    simp [Expr.occurrences, collection.bound_occurrences, key.bound_occurrences]
  | .call callee arguments => by
    simp [Expr.occurrences, callee.bound_occurrences, Expr.bound_occurrencesAll arguments]

theorem Expr.bound_occurrencesAll : ∀ es : List (Expr ν),
    Occurrence.bound (Expr.occurrencesAll es) = []
  | [] => rfl
  | e :: es => by
    simp [Expr.occurrencesAll, e.bound_occurrences, Expr.bound_occurrencesAll es]

end

/-- Where nothing is bound, all places are resolved in one scope. -/
theorem Occurrence.map_ref {scope : Scope} : ∀ {os : List (Occurrence String)}, bound os = [] →
    os.map (Occurrence.map scope.ref) = resolveAll scope os
  | [], _ => rfl
  | .use n :: os, h => by
    have ih : os.map (Occurrence.map scope.ref) = resolveAll scope os := map_ref h
    rw [List.map_cons, resolveAll, ih]
    rfl

theorem Expr.occurrences_ref (scope : Scope) (e : Expr String) :
    (e.map scope.ref).occurrences = Occurrence.resolveAll scope e.occurrences := by
  rw [Expr.occurrences_map, Occurrence.map_ref e.bound_occurrences]

theorem Expr.occurrencesAll_ref (scope : Scope) (es : List (Expr String)) :
    Expr.occurrencesAll (Expr.mapAll scope.ref es) =
      Occurrence.resolveAll scope (Expr.occurrencesAll es) := by
  rw [Expr.occurrencesAll_mapAll, Occurrence.map_ref (Expr.bound_occurrencesAll es)]

mutual

/-- Resolving a statement resolves its places one after the other, and leaves the scope with the
bindings of the statement added. -/
theorem Stmt.occurrences_resolve : ∀ (s : Stmt String) (scope : Scope),
    (s.resolve scope).1.occurrences = Occurrence.resolveAll scope s.occurrences ∧
      (s.resolve scope).2 = (Occurrence.bound s.occurrences).reverse ++ scope
  | .choose arms, scope => arms.occurrences_resolve scope
  | .loop condition body, scope => by
    obtain ⟨ho, hs⟩ := Stmt.occurrencesAll_resolveAll body scope
    simp only [Stmt.resolve, Stmt.occurrences]
    rw [Occurrence.resolveAll_append, Occurrence.bound_append, condition.bound_occurrences,
      condition.occurrences_ref, ho]
    exact ⟨rfl, hs⟩
  | .ret value, scope => by
    simp only [Stmt.resolve, Stmt.occurrences]
    rw [value.bound_occurrences, value.occurrences_ref]
    exact ⟨rfl, rfl⟩
  | .assign target indices value, scope => by
    simp only [Stmt.resolve, Stmt.occurrences, Occurrence.bound_use, Occurrence.resolveAll]
    rw [Occurrence.resolveAll_append, Occurrence.bound_append, Expr.bound_occurrencesAll,
      value.bound_occurrences, Expr.occurrencesAll_ref, value.occurrences_ref]
    exact ⟨rfl, rfl⟩
  | .declare name initializer, scope => by
    simp only [Stmt.resolve, Stmt.occurrences]
    rw [Occurrence.resolveAll_append, Occurrence.bound_append, initializer.bound_occurrences,
      initializer.occurrences_ref]
    exact ⟨rfl, rfl⟩
  | .run value, scope => by
    simp only [Stmt.resolve, Stmt.occurrences]
    rw [value.bound_occurrences, value.occurrences_ref]
    exact ⟨rfl, rfl⟩

theorem Arms.occurrences_resolve : ∀ (arms : Arms String) (scope : Scope),
    (arms.resolve scope).1.occurrences = Occurrence.resolveAll scope arms.occurrences ∧
      (arms.resolve scope).2 = (Occurrence.bound arms.occurrences).reverse ++ scope
  | .done, _ => ⟨rfl, rfl⟩
  | .otherwise body, scope => Stmt.occurrencesAll_resolveAll body scope
  | .arm condition body rest, scope => by
    obtain ⟨hb, hs⟩ := Stmt.occurrencesAll_resolveAll body scope
    obtain ⟨hr, hs'⟩ := rest.occurrences_resolve (Stmt.resolveAll scope body).2
    simp only [Arms.resolve, Arms.occurrences]
    rw [Occurrence.resolveAll_append, Occurrence.resolveAll_append, Occurrence.bound_append,
      Occurrence.bound_append, condition.bound_occurrences, condition.occurrences_ref, hb, hr, hs',
      hs]
    simp

theorem Stmt.occurrencesAll_resolveAll : ∀ (ss : List (Stmt String)) (scope : Scope),
    Stmt.occurrencesAll (Stmt.resolveAll scope ss).1 =
        Occurrence.resolveAll scope (Stmt.occurrencesAll ss) ∧
      (Stmt.resolveAll scope ss).2 =
        (Occurrence.bound (Stmt.occurrencesAll ss)).reverse ++ scope
  | [], _ => ⟨rfl, rfl⟩
  | s :: ss, scope => by
    obtain ⟨ho, hs⟩ := s.occurrences_resolve scope
    obtain ⟨ho', hs'⟩ := Stmt.occurrencesAll_resolveAll ss (s.resolve scope).2
    simp only [Stmt.resolveAll, Stmt.occurrencesAll]
    rw [Occurrence.resolveAll_append, Occurrence.bound_append, ho, ho', hs', hs]
    simp

end

mutual

/-- Resolving replaces names and nothing else. -/
theorem Stmt.shape_resolve : ∀ (s : Stmt String) (scope : Scope),
    (s.resolve scope).1.map blot = s.map blot
  | .choose arms, scope => congrArg Stmt.choose (arms.shape_resolve scope)
  | .loop condition body, scope => by
    simp only [Stmt.resolve, Stmt.map, Expr.map_map]
    rw [Stmt.shape_resolveAll body scope]
    rfl
  | .ret value, scope => by
    simp only [Stmt.resolve, Stmt.map, Expr.map_map]
    rfl
  | .assign target indices value, scope => by
    simp only [Stmt.resolve, Stmt.map, Expr.map_map, Expr.mapAll_mapAll]
    rfl
  | .declare name initializer, scope => by
    simp only [Stmt.resolve, Stmt.map, Expr.map_map]
    rfl
  | .run value, scope => by
    simp only [Stmt.resolve, Stmt.map, Expr.map_map]
    rfl

theorem Arms.shape_resolve : ∀ (arms : Arms String) (scope : Scope),
    (arms.resolve scope).1.map blot = arms.map blot
  | .done, _ => rfl
  | .otherwise body, scope => congrArg Arms.otherwise (Stmt.shape_resolveAll body scope)
  | .arm condition body rest, scope => by
    simp only [Arms.resolve, Arms.map, Expr.map_map]
    rw [Stmt.shape_resolveAll body scope, rest.shape_resolve _]
    rfl

theorem Stmt.shape_resolveAll : ∀ (ss : List (Stmt String)) (scope : Scope),
    Stmt.mapAll blot (Stmt.resolveAll scope ss).1 = Stmt.mapAll blot ss
  | [], _ => rfl
  | s :: ss, scope => by
    simp only [Stmt.resolveAll, Stmt.mapAll]
    rw [s.shape_resolve scope, Stmt.shape_resolveAll ss _]

end

/-- Resolving a function follows the rule. -/
theorem FunctionDef.scoped_resolve (f : FunctionDef String) : f.Scoped f.resolve.value where
  shape := by
    have hb := Stmt.shape_resolveAll f.body f.parameters.reverse
    have hp : (f.parameters.mapIdx fun slot _ => Ref.slot slot).map blot =
        f.parameters.map blot := by
      refine List.ext_getElem? fun i => ?_
      simp only [List.getElem?_map, List.getElem?_mapIdx, Option.map_map]
      rfl
    simp only [FunctionDef.resolve, FunctionDef.map, hb, hp]
  parameters i hi := by
    simp [FunctionDef.resolve, hi]
  occurrences before o after hsplit := by
    have ho := (Stmt.occurrencesAll_resolveAll f.body f.parameters.reverse).1
    simp only [FunctionDef.resolve]
    rw [ho, hsplit, ← f.parameters.length_reverse]
    refine Occurrence.becomes_resolveAll ?_
    rw [List.reverse_reverse, FunctionDef.bindings, hsplit, Occurrence.bound_append,
      ← List.append_assoc]
    exact List.prefix_append _ _

theorem Declaration.scoped_iff {d : Declaration String} {e : Declaration Ref} :
    d.Scoped e ↔ d.resolve.value = e := by
  constructor
  · intro h
    cases h with
    | load => rfl
    | global => rfl
    | @define f g h => exact congrArg Declaration.define (f.scoped_resolve.unique h)
  · rintro rfl
    cases d with
    | load path => exact .load
    | global name => exact .global
    | define f => exact .define f.scoped_resolve

theorem Program.scoped_iff {p : Program String} {q : Program Ref} :
    p.Scoped q ↔ p.resolve.value = q := by
  have hd : Declaration.Scoped = fun d e => d.resolve.value = e := by
    funext d e
    exact propext Declaration.scoped_iff
  have hp : p.resolve.value = ⟨p.declarations.map fun d => d.resolve.value⟩ := by
    simp [Program.resolve, Function.comp_def]
  obtain ⟨es⟩ := q
  rw [Program.Scoped, hd, hp, Program.mk.injEq, ← List.forall₂_eq_eq_eq]
  exact List.forall₂_map_left_iff.symm

/-- Resolving is the scoping rule. A resolved program follows the rule exactly if it is what
resolving gives, so imports, globals, the names of functions and all else but the names inside of
functions is as it was. The bindings of a function tell the name behind every reference in it. -/
theorem resolve_eq_iff_scoped :
    (∀ (p : Program String) (q : Program Ref), p.resolve.value = q ↔ p.Scoped q) ∧
    ∀ f : FunctionDef String, f.resolve.value.map (Ref.spelling? f.bindings) = f.map some :=
  ⟨fun _ _ => Program.scoped_iff.symm, fun f => f.scoped_resolve.map_spelling?⟩

end StackScript
