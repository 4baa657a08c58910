/-
# Renaming of locals

The names that a function binds do not reach its code. Take a function and a renaming that keeps
the names in it apart and leaves alone every name that is free at some place of it. The renamed
function is resolved to the same slots and the same free names, so a program in which it takes the
place of the function is lowered to the same instructions.

No second run of the resolver is needed to see this. The scoping rule says by positions in the
list of bindings what each place becomes, and a renaming that keeps names apart keeps these
positions (`Occurrence.Becomes.rename`). So the resolved function follows the rule for the renamed
one too, and the rule allows one resolved function only.

Key definitions: `FunctionDef.names`, `FunctionDef.UsesFree`.
Key theorems: `Occurrence.Becomes.rename`, `FunctionDef.Scoped.rename`, `resolve_rename`.
-/
import StackScript.Proofs.Scoping
import StackScript.Proofs.Slots

namespace StackScript

/-- The name that stands at a place. -/
def Occurrence.name {ν : Type} : Occurrence ν → ν
  | use n => n
  | bind n => n

/-- The names in the parameters and the body of a function. -/
def FunctionDef.names (f : FunctionDef String) : List String :=
  f.parameters ++ (Stmt.occurrencesAll f.body).map Occurrence.name

/-- Some place of the function refers to the name as a free one. -/
def FunctionDef.UsesFree (f : FunctionDef String) (n : String) : Prop :=
  Occurrence.use (Ref.free n) ∈ Stmt.occurrencesAll f.resolve.value.body

/-! ### Bindings under a renaming -/

namespace Occurrence

variable {ν μ : Type}

theorem bound_map (r : ν → μ) (os : List (Occurrence ν)) :
    bound (os.map (map r)) = (bound os).map r := by
  induction os with
  | nil => rfl
  | cons o os ih => cases o <;> simp [map, ih]

theorem name_mem_of_mem_bound {os : List (Occurrence ν)} {n : ν} (h : n ∈ bound os) :
    n ∈ os.map name := by
  obtain ⟨o, ho, hb⟩ := List.mem_filterMap.mp h
  cases o with
  | use m => cases hb
  | bind m =>
    obtain rfl : m = n := Option.some.inj hb
    exact List.mem_map_of_mem ho

end Occurrence

theorem FunctionDef.bindings_map (f : FunctionDef String) (r : String → String) :
    (f.map r).bindings = f.bindings.map r := by
  unfold FunctionDef.bindings FunctionDef.map
  rw [Stmt.occurrencesAll_mapAll, Occurrence.bound_map, List.map_append]

/-- What a function binds is a name in it. -/
theorem FunctionDef.bindings_subset_names (f : FunctionDef String) : f.bindings ⊆ f.names := by
  intro n hn
  rcases List.mem_append.mp hn with hp | hb
  · exact List.mem_append_left _ hp
  · exact List.mem_append_right _ (Occurrence.name_mem_of_mem_bound hb)

/-- A renamed binding is another name than `r n` wherever the binding is another name than `n`. -/
theorem getElem?_map_ne {B : List String} {n : String} {r : String → String}
    (hinj : ∀ b ∈ B, r b = r n → b = n) {j : Nat} (h : B[j]? ≠ some n) :
    (B.map r)[j]? ≠ some (r n) := by
  intro hj
  rw [List.getElem?_map] at hj
  obtain ⟨b, hb, hr⟩ := Option.map_eq_some_iff.mp hj
  have hbn : b = n := hinj b (List.mem_of_getElem? hb) hr
  exact h (hbn ▸ hb)

/-- A renaming that tells the name at a place from all bindings, and leaves it alone if it is free
there, changes nothing about what the place becomes. -/
theorem Occurrence.Becomes.rename {B : List String} {m : Nat} {o : Occurrence String}
    {o' : Occurrence Ref} (h : o.Becomes B m o') {r : String → String}
    (hinj : ∀ b ∈ B, r b = r o.name → b = o.name)
    (hfree : ∀ n, o' = .use (.free n) → r n = n) : (o.map r).Becomes (B.map r) m o' := by
  cases h with
  | bind => exact .bind
  | @last n k hk hn hlast =>
    have hget : (B.map r)[k]? = some (r n) := by rw [List.getElem?_map, hn, Option.map_some]
    apply Occurrence.Becomes.last hk hget
    intro j hj hj'
    exact getElem?_map_ne hinj (hlast j hj hj')
  | @free n hnone =>
    have hn : r n = n := hfree n rfl
    have hnone' : ∀ j, j < m → (B.map r)[j]? ≠ some (r n) := by
      intro j hj
      exact getElem?_map_ne hinj (hnone j hj)
    rw [hn] at hnone'
    change Occurrence.Becomes (B.map r) m (.use (r n)) (.use (.free n))
    rw [hn]
    exact .free hnone'

/-! ### Functions and programs -/

/-- By the rule, the renamed function becomes what the function itself becomes. -/
theorem FunctionDef.Scoped.rename {f : FunctionDef String} {g : FunctionDef Ref} (h : f.Scoped g)
    {r : String → String} (hinj : ∀ m ∈ f.names, ∀ n ∈ f.names, r m = r n → m = n)
    (hfree : ∀ n, .use (.free n) ∈ Stmt.occurrencesAll g.body → r n = n) :
    (f.map r).Scoped g where
  shape := by
    rw [FunctionDef.map_map]
    exact h.shape
  parameters i hi := by
    have hlen : (f.map r).parameters.length = f.parameters.length := by simp [FunctionDef.map]
    exact h.parameters i (hlen ▸ hi)
  occurrences before' o' after' hsplit := by
    have hbody : Stmt.occurrencesAll (f.map r).body =
        (Stmt.occurrencesAll f.body).map (Occurrence.map r) := Stmt.occurrencesAll_mapAll r f.body
    have hlen : (f.map r).parameters.length = f.parameters.length := by simp [FunctionDef.map]
    -- the places of the renamed function are those of the function, renamed one by one
    rw [hbody] at hsplit
    obtain ⟨before, rest, hrest, rfl, hrest'⟩ := List.map_eq_append_iff.mp hsplit
    obtain ⟨o, after, rfl, rfl, -⟩ := List.map_eq_cons_iff.mp hrest'
    obtain ⟨u, hu, hbecomes⟩ := h.occurrences before o after hrest
    have ho : o.name ∈ f.names := by
      apply List.mem_append_right
      rw [hrest]
      simp
    rw [List.length_map, Occurrence.bound_map, List.length_map, f.bindings_map, hlen]
    refine ⟨u, hu, hbecomes.rename ?_ ?_⟩
    · intro b hb hr
      exact hinj b (f.bindings_subset_names hb) o.name ho hr
    · rintro n rfl
      exact hfree n (List.mem_of_getElem? hu)

theorem FunctionDef.resolve_map {f : FunctionDef String} {r : String → String}
    (hinj : ∀ m ∈ f.names, ∀ n ∈ f.names, r m = r n → m = n)
    (hfree : ∀ n, f.UsesFree n → r n = n) : (f.map r).resolve.value = f.resolve.value :=
  (f.map r).scoped_resolve.unique (f.scoped_resolve.rename hinj hfree)

/-- Renaming the locals of one function of a program changes neither the resolved program nor its
code. The renaming keeps the names in the function apart, and leaves alone those that are free
somewhere in it. -/
theorem resolve_rename {p : Program String} {i : Nat} {f : FunctionDef String}
    (hf : p.declarations[i]? = some (.define f)) {r : String → String}
    (hinj : ∀ m ∈ f.names, ∀ n ∈ f.names, r m = r n → m = n)
    (hfree : ∀ n, f.UsesFree n → r n = n) :
    (⟨p.declarations.set i (.define (f.map r))⟩ : Program String).resolve.value =
        p.resolve.value ∧
      ∀ entry, (⟨p.declarations.set i (.define (f.map r))⟩ : Program String).resolve.value.lower
        entry = p.resolve.value.lower entry := by
  have hdecl : (Declaration.define (f.map r)).resolve.value =
      (Declaration.define f).resolve.value :=
    congrArg Declaration.define (FunctionDef.resolve_map hinj hfree)
  obtain ⟨hlt, hget⟩ := List.getElem?_eq_some_iff.mp hf
  have hresolve : (⟨p.declarations.set i (.define (f.map r))⟩ : Program String).resolve.value =
      p.resolve.value := by
    rw [Program.resolve_value, Program.resolve_value]
    apply congrArg Program.mk
    calc (p.declarations.set i (.define (f.map r))).map (fun d => d.resolve.value)
        = (p.declarations.map fun d => d.resolve.value).set i
            (Declaration.define (f.map r)).resolve.value := List.map_set
      _ = (p.declarations.map fun d => d.resolve.value).set i p.declarations[i].resolve.value := by
          rw [hdecl, hget]
      _ = p.declarations.map fun d => d.resolve.value := by
          rw [← List.map_set, List.set_getElem_self]
  refine ⟨hresolve, ?_⟩
  intro entry
  rw [hresolve]

/-- The parameters change their names with each other. The name `x` is free in the first statement
and bound by the second, so it stays. -/
theorem resolve_rename_swap :
    (⟨[.global "x", .define ⟨"f", ["b", "a"],
        [.run (.name "x"), .declare "x" (.name "b"), .assign "a" [.name "x"] (.name "b"),
          .declare "b" (.name "a"), .ret (.name "b")]⟩]⟩ : Program String).resolve.value =
      (⟨[.global "x", .define ⟨"f", ["a", "b"],
        [.run (.name "x"), .declare "x" (.name "a"), .assign "b" [.name "x"] (.name "a"),
          .declare "a" (.name "b"), .ret (.name "a")]⟩]⟩ : Program String).resolve.value := by
  let f : FunctionDef String := ⟨"f", ["a", "b"],
    [.run (.name "x"), .declare "x" (.name "a"), .assign "b" [.name "x"] (.name "a"),
      .declare "a" (.name "b"), .ret (.name "a")]⟩
  let r : String → String := fun n => if n = "a" then "b" else if n = "b" then "a" else n
  have hinj : ∀ m ∈ f.names, ∀ n ∈ f.names, r m = r n → m = n := by decide
  have hfree : ∀ n, f.UsesFree n → r n = n := by
    intro n hn
    have ho : Stmt.occurrencesAll f.resolve.value.body =
        [.use (.free "x"), .use (.slot 0), .bind (.slot 2), .use (.slot 1), .use (.slot 2),
          .use (.slot 0), .use (.slot 1), .bind (.slot 3), .use (.slot 3)] := by decide
    obtain rfl : n = "x" := by simpa [FunctionDef.UsesFree, ho] using hn
    decide
  have hf : (⟨[.global "x", .define f]⟩ : Program String).declarations[1]? =
      some (.define f) := rfl
  exact (resolve_rename hf hinj hfree).1

end StackScript
