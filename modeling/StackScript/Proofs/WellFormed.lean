/-
# Trees that can be written

Not every tree is the tree of a source. A name in it may be no word or a reserved one, an integer
may be negative, which is written as an operation, and an `if` may have no arm. A tree is well
formed if none of this is so. Strings and paths may be any text.

What the parser reads is well formed: by the derivation of the tree, since the identifiers of a
source are names and a number that is written has no sign.

Key definitions: `Expr.WellFormed`, `Stmt.WellFormed`, `Program.WellFormed`.
Key theorem: `Grammar.Decls.wellFormed`.
-/
import StackScript.Proofs.Symbols

namespace StackScript

mutual

/-- Names are names and integers are not negative. -/
def Expr.WellFormed : Expr String → Prop
  | .null => True
  | .boolean _ => True
  | .integer value => 0 ≤ value
  | .string _ => True
  | .list elements => Expr.AllWellFormed elements
  | .name n => IsName n
  | .binary _ left right => left.WellFormed ∧ right.WellFormed
  | .unary _ operand => operand.WellFormed
  | .index collection key => collection.WellFormed ∧ key.WellFormed
  | .call callee arguments => callee.WellFormed ∧ Expr.AllWellFormed arguments

/-- All of some expressions are well formed. -/
def Expr.AllWellFormed : List (Expr String) → Prop
  | [] => True
  | e :: es => e.WellFormed ∧ Expr.AllWellFormed es

end

mutual

/-- The same of statements, in which an `if` has an arm. -/
def Stmt.WellFormed : Stmt String → Prop
  | .choose arms => arms.branches ≠ [] ∧ arms.WellFormed
  | .loop condition body => condition.WellFormed ∧ Stmt.AllWellFormed body
  | .ret value => value.WellFormed
  | .assign target indices value =>
    IsName target ∧ Expr.AllWellFormed indices ∧ value.WellFormed
  | .declare name initializer => IsName name ∧ initializer.WellFormed
  | .run value => value.WellFormed

/-- The parts of an `if` are well formed. -/
def Arms.WellFormed : Arms String → Prop
  | .done => True
  | .otherwise body => Stmt.AllWellFormed body
  | .arm condition body rest =>
    condition.WellFormed ∧ Stmt.AllWellFormed body ∧ rest.WellFormed

/-- All of some statements are well formed. -/
def Stmt.AllWellFormed : List (Stmt String) → Prop
  | [] => True
  | s :: ss => s.WellFormed ∧ Stmt.AllWellFormed ss

end

/-- The same of declarations. -/
def Declaration.WellFormed : Declaration String → Prop
  | .load _ => True
  | .global name => IsName name
  | .define f => IsName f.name ∧ (∀ n ∈ f.parameters, IsName n) ∧ Stmt.AllWellFormed f.body

/-- Every part of a program is well formed. -/
def Program.WellFormed (p : Program String) : Prop :=
  ∀ d ∈ p.declarations, d.WellFormed

namespace Grammar

/-- Every identifier is a name. -/
def Named (w : List Symbol) : Prop := ∀ s ∈ w, s.kind = .identifier → IsName s.name

@[simp] theorem named_cons {s : Symbol} {w : List Symbol} :
    Named (s :: w) ↔ (s.kind = .identifier → IsName s.name) ∧ Named w := by
  simp [Named]

@[simp] theorem named_append {v w : List Symbol} : Named (v ++ w) ↔ Named v ∧ Named w := by
  simp [Named, or_imp, forall_and]

/-- A number that can be written is not negative. -/
theorem zero_le_of_toInt {i : Int64} {n : Nat} (h : i.toInt = n) : 0 ≤ i := by
  rw [Int64.le_iff_toInt_le, h]
  simp

mutual

theorem Expression.wellFormed : ∀ {w : List Symbol} {e : Expr String}, Expression w e →
    Named w → e.WellFormed
  | _, _, .operand h, hw => h.wellFormed hw
  | _, _, .binary h _ h', hw => by
    simp only [named_append, named_cons] at hw
    exact ⟨h.wellFormed hw.1, h'.wellFormed hw.2.2⟩

theorem Operand.wellFormed : ∀ {w : List Symbol} {e : Expr String}, Operand w e →
    Named w → e.WellFormed
  | _, _, .negate h, hw => h.wellFormed (named_cons.mp hw).2
  | _, _, .not h, hw => h.wellFormed (named_cons.mp hw).2
  | _, _, .chain h, hw => h.wellFormed hw

theorem Chain.wellFormed : ∀ {w : List Symbol} {e : Expr String}, Chain w e →
    Named w → e.WellFormed
  | _, _, .atom h, hw => h.wellFormed hw
  | _, _, .call h h', hw => by
    simp only [named_append, named_cons] at hw
    exact ⟨h.wellFormed hw.1.1, h'.wellFormed hw.1.2.2⟩
  | _, _, .index h h', hw => by
    simp only [named_append, named_cons] at hw
    exact ⟨h.wellFormed hw.1.1, h'.wellFormed hw.1.2.2⟩

theorem Atom.wellFormed : ∀ {w : List Symbol} {e : Expr String}, Atom w e →
    Named w → e.WellFormed
  | _, _, .true, _ => trivial
  | _, _, .false, _ => trivial
  | _, _, .null, _ => trivial
  | _, _, .name, hw => (named_cons.mp hw).1 rfl
  | _, _, .integer _ _ hi, _ => zero_le_of_toInt hi
  | _, _, .string _, _ => trivial
  | _, _, .list h, hw => by
    simp only [named_append, named_cons] at hw
    exact h.wellFormed hw.1.2
  | _, _, .parens h, hw => by
    simp only [named_append, named_cons] at hw
    exact h.wellFormed hw.1.2

theorem Items.wellFormed : ∀ {w : List Symbol} {es : List (Expr String)}, Items w es →
    Named w → Expr.AllWellFormed es
  | _, _, .nil, _ => trivial
  | _, _, .last h, hw => ⟨h.wellFormed hw, trivial⟩
  | _, _, .cons h h', hw => by
    simp only [named_append, named_cons] at hw
    exact ⟨h.wellFormed hw.1, h'.wellFormed hw.2.2⟩

end

theorem Indices.wellFormed : ∀ {w : List Symbol} {es : List (Expr String)}, Indices w es →
    Named w → Expr.AllWellFormed es
  | _, _, .nil, _ => trivial
  | _, _, .cons h h', hw => by
    simp only [named_append, named_cons] at hw
    exact ⟨h.wellFormed hw.1.2, h'.wellFormed hw.2.2⟩

mutual

theorem Block.wellFormed : ∀ {w : List Symbol} {ss : List (Stmt String)}, Block w ss →
    Named w → Stmt.AllWellFormed ss
  | _, _, .braces h, hw => by
    simp only [named_append, named_cons] at hw
    exact h.wellFormed hw.1.2

theorem Statements.wellFormed : ∀ {w : List Symbol} {ss : List (Stmt String)}, Statements w ss →
    Named w → Stmt.AllWellFormed ss
  | _, _, .nil, _ => trivial
  | _, _, .cons h h', hw => by
    rw [named_append] at hw
    exact ⟨h.wellFormed hw.1, h'.wellFormed hw.2⟩

theorem Statement.wellFormed : ∀ {w : List Symbol} {s : Stmt String}, Statement w s →
    Named w → s.WellFormed
  | _, _, .ret h, hw => by
    simp only [named_append, named_cons] at hw
    exact h.wellFormed hw.1.2
  | _, _, .retNull, _ => trivial
  | _, _, .run h, hw => by
    simp only [named_append, named_cons] at hw
    exact h.wellFormed hw.1.2
  | _, _, .declare h, hw => by
    simp only [named_append, named_cons] at hw
    exact ⟨hw.1.2.1 trivial, h.wellFormed hw.1.2.2.2⟩
  | _, _, .assign h h', hw => by
    simp only [named_append, named_cons] at hw
    exact ⟨hw.1.1.2.1 trivial, h.wellFormed hw.1.1.2.2, h'.wellFormed hw.1.2.2⟩
  | _, _, .loop h h', hw => by
    simp only [named_append, named_cons] at hw
    exact ⟨h.wellFormed hw.1.2.2, h'.wellFormed hw.2.2⟩
  | _, _, .choose h h' h'', hw => by
    simp only [named_append, named_cons] at hw
    refine ⟨by simp [Arms.branches], h.wellFormed hw.1.1.2.2, h'.wellFormed hw.1.2.2, ?_⟩
    exact h''.wellFormed hw.2

theorem Otherwise.wellFormed : ∀ {w : List Symbol} {more : Arms String}, Otherwise w more →
    Named w → more.WellFormed
  | _, _, .done, _ => trivial
  | _, _, .otherwise h, hw => h.wellFormed (named_cons.mp hw).2
  | _, _, .arm h h' h'', hw => by
    simp only [named_append, named_cons] at hw
    exact ⟨h.wellFormed hw.1.1.2.2.2, h'.wellFormed hw.1.2.2, h''.wellFormed hw.2⟩

end

theorem MoreParameters.isName : ∀ {w : List Symbol} {ns : List String}, MoreParameters w ns →
    Named w → ∀ n ∈ ns, IsName n
  | _, _, .nil, _ => by simp
  | _, _, .cons h, hw => by
    simp only [named_cons] at hw
    exact List.forall_mem_cons.mpr ⟨hw.2.1 trivial, h.isName hw.2.2⟩

theorem Parameters.isName {w : List Symbol} {ns : List String} (h : Parameters w ns)
    (hw : Named w) : ∀ n ∈ ns, IsName n := by
  cases h with
  | nil => simp
  | cons h =>
    rw [named_cons] at hw
    exact List.forall_mem_cons.mpr ⟨hw.1 rfl, h.isName hw.2⟩

theorem Decl.wellFormed {w : List Symbol} {d : Declaration String} (h : Decl w d)
    (hw : Named w) : d.WellFormed := by
  cases h with
  | load _ => trivial
  | global =>
    simp only [named_cons] at hw
    exact hw.2.1 trivial
  | define hp hb =>
    simp only [named_append, named_cons] at hw
    exact ⟨hw.1.2.1 trivial, hp.isName hw.1.2.2.2, hb.wellFormed hw.2.2⟩

/-- A program whose identifiers are names is well formed. -/
theorem Decls.wellFormed : ∀ {w : List Symbol} {ds : List (Declaration String)}, Decls w ds →
    Named w → ∀ d ∈ ds, d.WellFormed
  | _, _, .nil, _ => by simp
  | _, _, .cons h h', hw => by
    rw [named_append] at hw
    exact List.forall_mem_cons.mpr ⟨h.wellFormed hw.1, h'.wellFormed hw.2⟩

end Grammar

/-- The identifiers of a source are names. -/
theorem named_tokens (n : Nat) (cs : List Char) :
    Grammar.Named ((tokens n cs).map Token.symbol) := by
  intro s hs hk
  obtain ⟨t, ht, rfl⟩ := List.mem_map.mp hs
  exact isName_of_mem_tokens ht hk

end StackScript
