/-
# Compiled code keeps the stack in order

What can be said of code without running it: every instruction takes entries of certain kinds from
the stack and pushes values. Code is checked from left to right, and what follows a return or a
break is checked like all other code. The code of a block is checked on a stack of its own, so
that it cannot reach below the height at which it starts. A block that ends is an entry of the
stack around it, with the height at which it ended. A conditional takes two blocks that end where
they started and a loop takes one; only the block of a function may end higher.

All compiled code passes. Expressions push one value and statements leave the stack as it was.

Key definitions: `Instr.takes`, `Instr.pushes`, `check`, `Passes`, `Layout`.
Key theorems: `Expr.passes_lower`, `Stmt.passes_lower`, `compile_valid`.
-/
import StackScript.Compiler
import StackScript.Proofs.Blocks

namespace StackScript

/-- An entry of the stack. -/
inductive Entry where
  | value
  /-- A block that ended `height` entries above its start. -/
  | block (height : Nat)
  deriving DecidableEq, Repr

/-- What an instruction needs to find in a place of the stack. -/
inductive Need where
  | value
  /-- A block that ends at the height of its start. -/
  | level
  /-- A block that may end higher. -/
  | body
  deriving DecidableEq, Repr

/-- Whether an entry is what is needed. -/
def Need.fits : Need → Entry → Bool
  | value, .value => true
  | level, .block height => height = 0
  | body, .block _ => true
  | _, _ => false

/-- What an instruction takes from the stack, from the top down. -/
def Instr.takes : Instr → List Need
  | load | ret | setSlot _ | drop | breakIf | declareGlobal | getFree => [.value]
  | setFree => [.value, .value]
  | callKnown name arity => List.replicate (if name = "==[]" then 3 else arity) .value
  | callUnknown arity => List.replicate (arity + 1) .value
  | list count => List.replicate count .value
  | choose => [.level, .level, .value]
  | loop => [.level]
  | define _ _ => [.body]
  | startBlock | endBlock | null | boolean _ | integer _ | string _ | getSlot _ => []

/-- How many values an instruction pushes. -/
def Instr.pushes : Instr → Nat
  | callKnown name _ => if name = "==[]" then 0 else 1
  | callUnknown _ | null | boolean _ | integer _ | string _ | list _ | getSlot _ | getFree => 1
  | _ => 0

/-- The entries of a stack, or of the part of it that belongs to a block, from the top down. -/
abbrev Stack := List Entry

/-- Takes entries from a stack, each of which must be what is needed. -/
def takeAll : List Need → Stack → Option Stack
  | [], stack => some stack
  | n :: needs, e :: stack => if n.fits e then takeAll needs stack else none
  | _ :: _, [] => none

namespace Stack

/-- The stack with values on top. -/
def push (s : Stack) (n : Nat) : Stack := List.replicate n .value ++ s

/-- The stack with a block on top whose own part of the stack is `inner`. -/
def pushBlock (s inner : Stack) : Stack := .block inner.length :: s

/-- Checks one instruction that is no mark. -/
def exec (s : Stack) (i : Instr) : Option Stack :=
  (takeAll i.takes s).map fun stack => push stack i.pushes

end Stack

/-- Checks code that starts at the stack `s`, where the blocks around it have the stacks
`outer`. -/
def check (s : Stack) (outer : List Stack) : List Instr → Option (Stack × List Stack)
  | [] => some (s, outer)
  | .startBlock :: code => check [] (s :: outer) code
  | .endBlock :: code =>
    match outer with
    | [] => none
    | around :: outer => check (around.pushBlock s) outer code
  | i :: code => (s.exec i).bind fun s => check s outer code

/-- Code passes the check, and takes its block from the one stack to the other. -/
def Passes (code : List Instr) (s s' : Stack) : Prop :=
  ∀ outer, check s outer code = some (s', outer)

/-! ### Checking code part by part -/

theorem check_append (a b : List Instr) (s : Stack) (outer : List Stack) :
    check s outer (a ++ b) = (check s outer a).bind fun p => check p.1 p.2 b := by
  fun_induction check s outer a with
  | case1 s outer => rfl
  | case2 s outer code ih => rw [List.cons_append, check, ih]
  | case3 s code => rfl
  | case4 s code around outer ih => rw [List.cons_append, check, ih]
  | case5 s outer i code hs he ih =>
    rw [List.cons_append, check]
    · cases s.exec i with
      | none => rfl
      | some s' => exact ih s'
    · exact hs
    · exact he

namespace Passes

variable {a b code : List Instr} {s s' s'' : Stack}

theorem nil (s : Stack) : Passes [] s s := fun _ => rfl

theorem append (ha : Passes a s s') (hb : Passes b s' s'') : Passes (a ++ b) s s'' := by
  intro outer
  rw [check_append, ha outer]
  exact hb outer

/-- One instruction. -/
theorem single {i : Instr} (hm : i.isMark = false) (h : s.exec i = some s') :
    Passes [i] s s' := by
  intro outer
  obtain ⟨hs, he⟩ := Instr.ne_of_isMark hm
  rw [check, h]
  · rfl
  · exact hs
  · exact he

theorem cons {i : Instr} (hm : i.isMark = false) (h : s.exec i = some s')
    (hc : Passes code s' s'') : Passes (i :: code) s s'' :=
  (single hm h).append hc

/-- One block. -/
theorem block {inner : Stack} (h : Passes code [] inner) (s : Stack) :
    Passes (.startBlock :: code ++ [.endBlock]) s (s.pushBlock inner) := by
  intro outer
  rw [List.cons_append, check, check_append, h]
  rfl

end Passes

theorem Stack.push_push (s : Stack) (m n : Nat) : (s.push m).push n = s.push (n + m) := by
  simp [Stack.push, ← List.append_assoc]

theorem takeAll_replicate (n : Nat) (stack : Stack) :
    takeAll (List.replicate n .value) (stack.push n) = some stack := by
  induction n with
  | zero => rfl
  | succ n ih =>
    have hv : Need.value.fits .value = true := rfl
    rw [Stack.push, List.replicate_succ, List.replicate_succ, List.cons_append, takeAll, if_pos hv]
    exact ih

/-- An instruction that takes values only. -/
theorem Stack.exec_values {i : Instr} {n : Nat} (ht : i.takes = List.replicate n .value)
    (s : Stack) : (s.push n).exec i = some (s.push i.pushes) := by
  rw [Stack.exec, ht, takeAll_replicate]
  rfl

/-- Code that pushes values, and an instruction that takes them. -/
theorem Passes.call {code : List Instr} {i : Instr} {n : Nat} {s : Stack}
    (h : Passes code s (s.push n)) (ht : i.takes = List.replicate n .value)
    (hm : i.isMark = false) : Passes (code ++ [i]) s (s.push i.pushes) :=
  h.append (.single hm (Stack.exec_values ht s))

/-! ### Lowered code passes -/

theorem Ref.passes_load (n : Ref) (s : Stack) : Passes n.load s (s.push 1) := by
  cases n with
  | slot k => exact .single rfl rfl
  | free name => exact .cons rfl rfl (.single rfl rfl)

theorem Ref.passes_store (n : Ref) (s : Stack) : Passes n.store (s.push 1) s := by
  cases n with
  | slot k => exact .single rfl rfl
  | free name => exact .cons rfl rfl (.single rfl rfl)

theorem Instr.takes_callKnown {name : String} (h : name ≠ "==[]") (arity : Nat) :
    (Instr.callKnown name arity).takes = List.replicate arity .value ∧
      (Instr.callKnown name arity).pushes = 1 := by
  refine ⟨?_, if_neg h⟩
  change List.replicate (if name = "==[]" then 3 else arity) Need.value = _
  rw [if_neg h]

mutual

/-- The code of an expression pushes one value. -/
theorem Expr.passes_lower : ∀ (e : Expr Ref) (s : Stack), Passes e.lower s (s.push 1)
  | .null, s => .single rfl rfl
  | .boolean _, s => .single rfl rfl
  | .integer _, s => .single rfl rfl
  | .string _, s => .single rfl rfl
  | .list elements, s => (Expr.passes_lowerAll elements s).call rfl rfl
  | .name n, s => n.passes_load s
  | .binary op left right, s => by
    obtain ⟨ht, hp⟩ := Instr.takes_callKnown op.routine_ne 2
    have hargs := (left.passes_lower s).append (right.passes_lower (s.push 1))
    have hcall := hargs.call ht rfl
    rwa [hp] at hcall
  | .unary op operand, s => by
    obtain ⟨ht, hp⟩ := Instr.takes_callKnown op.routine_ne 1
    have hcall := (operand.passes_lower s).call ht rfl
    rwa [hp] at hcall
  | .index collection key, s => by
    have hargs := (collection.passes_lower s).append (key.passes_lower (s.push 1))
    exact hargs.call rfl rfl
  | .call callee arguments, s => by
    have hargs := (Expr.passes_lowerAll arguments s).append (callee.passes_lower _)
    rw [Stack.push_push, Nat.add_comm] at hargs
    exact hargs.call rfl rfl

theorem Expr.passes_lowerAll : ∀ (es : List (Expr Ref)) (s : Stack),
    Passes (Expr.lowerAll es) s (s.push es.length)
  | [], s => .nil s
  | e :: es, s => by
    have h := (e.passes_lower s).append (Expr.passes_lowerAll es (s.push 1))
    rwa [Stack.push_push] at h

end

/-- The code of a place takes the collection and the value. -/
theorem Expr.passes_lowerPlace (s : Stack) : ∀ (es : List (Expr Ref)) (e : Expr Ref),
    Passes (Expr.lowerPlace (e :: es)) (s.push 2) s
  | [], e => by
    have hset : Passes [.setIndex] ((s.push 2).push 1) s := .single rfl rfl
    exact (e.passes_lower (s.push 2)).append hset
  | e' :: es, e => by
    have hget : Passes [.getIndex] ((s.push 2).push 1) (s.push 2) := .single rfl rfl
    exact ((e.passes_lower (s.push 2)).append hget).append (Expr.passes_lowerPlace s es e')

theorem Ref.passes_storeAt (n : Ref) (es : List (Expr Ref)) (s : Stack) :
    Passes (n.storeAt es) (s.push 1) s := by
  cases es with
  | nil => exact n.passes_store s
  | cons e es =>
    have hload := n.passes_load (s.push 1)
    rw [Stack.push_push] at hload
    exact hload.append (Expr.passes_lowerPlace s es e)

mutual

/-- The code of a statement leaves the stack as it was. -/
theorem Stmt.passes_lower : ∀ (t : Stmt Ref) {code : List Instr}, t.lower = .ok code →
    ∀ s : Stack, Passes code s s
  | .choose arms, _, h, s => arms.passes_lower h s
  | .loop condition body, _, h, s => by
    obtain ⟨round, hr, rfl⟩ := Stmt.lower_loop_eq_ok.mp h
    have hbody := Stmt.passes_lowerAll body hr []
    have hround : Passes (condition.lower ++ .breakIf :: round) [] [] :=
      (condition.passes_lower []).append (.cons rfl rfl hbody)
    have hblock := (hround.block s).append (.single (i := .loop) rfl rfl)
    rwa [List.append_assoc] at hblock
  | .ret value, _, h, s => by
    obtain rfl := Except.ok.inj h
    exact (value.passes_lower s).append (.single rfl rfl)
  | .assign target indices value, _, h, s => by
    obtain rfl := Except.ok.inj h
    exact (value.passes_lower s).append (target.passes_storeAt indices s)
  | .declare (.slot k) initializer, _, h, s => by
    obtain rfl := Except.ok.inj h
    exact (initializer.passes_lower s).append (.single rfl rfl)
  | .declare (.free n) _, _, h, _ => nomatch h
  | .run value, _, h, s => by
    obtain rfl := Except.ok.inj h
    exact (value.passes_lower s).append (.single rfl rfl)

theorem Arms.passes_lower : ∀ (arms : Arms Ref) {code : List Instr}, arms.lower = .ok code →
    ∀ s : Stack, Passes code s s
  | .done, _, h, s => by
    obtain rfl := Except.ok.inj h
    exact .nil s
  | .otherwise body, _, h, s => Stmt.passes_lowerAll body h s
  | .arm condition body rest, _, h, s => by
    obtain ⟨yes, no, hy, hn, rfl⟩ := Arms.lower_arm_eq_ok.mp h
    have hyes := (Stmt.passes_lowerAll body hy []).block (s.push 1)
    have hno := (rest.passes_lower hn []).block ((s.push 1).pushBlock [])
    have hchoose : Passes [.choose] (((s.push 1).pushBlock []).pushBlock []) s :=
      .single rfl rfl
    have hall := (condition.passes_lower s).append (hyes.append (hno.append hchoose))
    simpa using hall

theorem Stmt.passes_lowerAll : ∀ (ts : List (Stmt Ref)) {code : List Instr},
    Stmt.lowerAll ts = .ok code → ∀ s : Stack, Passes code s s
  | [], _, h, s => by
    obtain rfl := Except.ok.inj h
    exact .nil s
  | t :: ts, _, h, s => by
    obtain ⟨first, more, hf, hm, rfl⟩ := Stmt.lowerAll_cons_eq_ok.mp h
    exact (t.passes_lower hf s).append (Stmt.passes_lowerAll ts hm s)

end

/-! ### Programs -/

/-- The code of one declaration. That of a function is at the height of its start again just
before what every function ends with: the entry function asks for the end of the process, and all
return null. -/
inductive Part (entry : String) : Declaration String → List Instr → Prop
  | load {path} : Part entry (.load path) [.string path, .load]
  | global {name} : Part entry (.global name) [.string name, .declareGlobal]
  | define {f body} : Structured 0 body → Passes body [] [] →
      Part entry (.define f) (.startBlock :: body ++
        (if f.name = entry then [.integer 0, .callKnown "exit" 1] else []) ++
        [.null, .ret, .endBlock, .define f.name f.parameters.length])

/-- The code of declarations one after the other, each of which leaves the stack empty. -/
inductive Layout (entry : String) : List (Declaration String) → List Instr → Prop
  | nil : Layout entry [] []
  | cons {d ds part code} : Part entry d part → Passes part [] [] →
      Layout entry ds code → Layout entry (d :: ds) (part ++ code)

/-- The functions that code defines, with the numbers of their parameters. -/
def definitions (code : List Instr) : List (String × Nat) :=
  code.filterMap fun
    | .define name parameters => some (name, parameters)
    | _ => none

/-- All marks are well nested, whatever the other instructions are. -/
abbrev WellNested (code : List Instr) : Prop := Nested (fun _ => true) code

/-- Instructions that belong between functions stand at depth zero: there is no open block before
them. -/
def OuterAtTop (code : List Instr) : Prop :=
  ∀ pre i post, code = pre ++ i :: post → i.isInner = false → WellNested pre

theorem Nested.isInner_of_mem {code : List Instr} (h : Nested Instr.isInner code) :
    ∀ i ∈ code, i.isInner = true := by
  induction h with
  | nil => simp
  | plain _ hp _ ih => exact List.forall_mem_cons.mpr ⟨hp, ih⟩
  | block _ _ ih₁ ih₂ =>
    intro i hi
    simp only [List.mem_append, List.mem_cons] at hi
    rcases hi with (rfl | hi) | rfl | hi
    · rfl
    · exact ih₁ i hi
    · rfl
    · exact ih₂ i hi

theorem Nested.definitions_eq {code : List Instr} (h : Nested Instr.isInner code) :
    definitions code = [] := by
  refine List.filterMap_eq_nil_iff.mpr fun i hi => ?_
  have := h.isInner_of_mem i hi
  cases i <;> first | rfl | exact nomatch this

theorem OuterAtTop.of_inner {code : List Instr} (h : ∀ i ∈ code, i.isInner = true) :
    OuterAtTop code := by
  rintro pre i post rfl hi
  have := h i (by simp)
  rw [hi] at this
  exact nomatch this

theorem OuterAtTop.single (i : Instr) : OuterAtTop [i] := by
  intro pre j post h _
  cases pre with
  | nil => exact .nil
  | cons k pre => simp at h

theorem OuterAtTop.append {a b : List Instr} (ha : OuterAtTop a) (hw : WellNested a)
    (hb : OuterAtTop b) : OuterAtTop (a ++ b) := by
  intro pre i post h hi
  rcases List.append_eq_append_iff.mp h with ⟨c, rfl, hc⟩ | ⟨c, hc, hb'⟩
  · exact hw.append (hb c i post hc hi)
  · cases c with
    | nil =>
      rw [List.append_nil] at hc
      exact hc ▸ hw
    | cons j c =>
      obtain ⟨rfl, -⟩ := List.cons.inj hb'
      exact ha pre i c hc hi

/-- The code of a function is one block, which its ending closes, and the definition. -/
theorem define_eq (entry : String) (f : FunctionDef String) (body : List Instr) :
    .startBlock :: body ++
        (if f.name = entry then [.integer 0, .callKnown "exit" 1] else []) ++
        [.null, .ret, .endBlock, .define f.name f.parameters.length] =
      .startBlock :: (body ++ closing entry f.name) ++ [.endBlock] ++
        [.define f.name f.parameters.length] := by
  simp [closing, Instr.exit]

/-- The code of a declaration stands at depth zero with its outer instruction, and defines the
function that is declared. -/
theorem Part.outline {entry : String} {d : Declaration String} {part : List Instr}
    (h : Part entry d part) :
    WellNested part ∧ OuterAtTop part ∧
      definitions part = (Program.functions ⟨[d]⟩).map fun f => (f.name, f.parameters.length) := by
  have htext : ∀ t, WellNested [.string t] := fun t => .plain rfl rfl .nil
  cases h with
  | @load path =>
    refine ⟨(htext path).append (.plain rfl rfl .nil), ?_, rfl⟩
    exact (OuterAtTop.single (.string path)).append (htext path) (.single .load)
  | @global name =>
    refine ⟨(htext name).append (.plain rfl rfl .nil), ?_, rfl⟩
    exact (OuterAtTop.single (.string name)).append (htext name) (.single .declareGlobal)
  | @define f body hs hp =>
    have hb : Nested Instr.isInner (.startBlock :: (body ++ closing entry f.name) ++ [.endBlock]) :=
      .block (hs.append (structured_closing entry f.name)).nested .nil
    have hw : WellNested (.startBlock :: (body ++ closing entry f.name) ++ [.endBlock]) :=
      hb.mono fun _ _ => rfl
    rw [define_eq]
    refine ⟨hw.append (.plain rfl rfl .nil), ?_, ?_⟩
    · exact (OuterAtTop.of_inner hb.isInner_of_mem).append hw (.single _)
    · have hd := hb.definitions_eq
      unfold definitions at hd ⊢
      rw [List.filterMap_append, hd]
      rfl

/-- So does the code of a program. -/
theorem Layout.outline {entry : String} {ds : List (Declaration String)} {code : List Instr}
    (h : Layout entry ds code) :
    WellNested code ∧ Passes code [] [] ∧ OuterAtTop code ∧
      definitions code = (Program.functions ⟨ds⟩).map fun f => (f.name, f.parameters.length) := by
  induction h with
  | nil => exact ⟨.nil, .nil _, .of_inner (by simp), rfl⟩
  | @cons d ds part code hpart hp _ ih =>
    obtain ⟨hw, hpass, ho, hd⟩ := ih
    obtain ⟨hw', ho', hd'⟩ := hpart.outline
    refine ⟨hw'.append hw, hp.append hpass, ho'.append hw' ho, ?_⟩
    have hf : Program.functions ⟨d :: ds⟩ = Program.functions ⟨[d]⟩ ++ Program.functions ⟨ds⟩ := by
      unfold Program.functions
      rw [← List.filterMap_append, List.singleton_append]
    unfold definitions at hd hd' ⊢
    rw [List.filterMap_append, hd, hd', hf, List.map_append]

/-! ### From sources to code -/

/-- What a function ends with pops what it pushes, but for the answer to the last call of the
entry function. -/
theorem passes_closing (entry name : String) :
    ∃ n, Passes (closing entry name) [] (Stack.push [] n) := by
  have hend : ∀ s : Stack, Passes [.null, .ret] s s := fun s =>
    .cons rfl rfl (.single rfl rfl)
  unfold closing
  by_cases h : name = entry
  · rw [if_pos h]
    have hexit : Passes [.integer 0, .exit] [] (Stack.push [] 1) :=
      .cons rfl rfl (.single rfl rfl)
    exact ⟨1, hexit.append (hend _)⟩
  · rw [if_neg h]
    exact ⟨0, hend _⟩

/-- The code of a declaration that was resolved. -/
theorem Declaration.part_of_lower {entry : String} {d : Declaration String} {part : List Instr}
    (h : d.resolve.value.lower entry = .ok part) :
    Part entry d part ∧ Passes part [] [] := by
  cases d with
  | load path =>
    obtain rfl := Except.ok.inj h
    exact ⟨.load, .cons rfl rfl (.single rfl rfl)⟩
  | global name =>
    obtain rfl := Except.ok.inj h
    exact ⟨.global, .cons rfl rfl (.single rfl rfl)⟩
  | define f =>
    obtain ⟨body, hb, rfl⟩ := FunctionDef.lower_eq_ok.mp h
    have hname : f.resolve.value.name = f.name := rfl
    have hcount : f.resolve.value.parameters.length = f.parameters.length := by
      simp [FunctionDef.resolve]
    have hpass := Stmt.passes_lowerAll _ hb []
    obtain ⟨n, hn⟩ := passes_closing entry f.name
    have hblock := (hpass.append hn).block []
    have hdef : Passes [.define f.name f.parameters.length]
        (Stack.pushBlock [] (Stack.push [] n)) [] := .single rfl rfl
    rw [hname, hcount]
    constructor
    · have hpart : Part entry (.define f) _ := .define (Stmt.structured_lowerAll _ hb) hpass
      rwa [define_eq, List.append_assoc] at hpart
    · have hall := hblock.append hdef
      rwa [List.append_assoc] at hall

theorem Layout.of_lower {entry : String} {ds : List (Declaration String)} {code : List Instr}
    (h : (Declaration.lowerAll entry (ds.map fun d => d.resolve.value)).value = .ok code) :
    Layout entry ds code := by
  induction ds generalizing code with
  | nil =>
    obtain rfl := Except.ok.inj h
    exact .nil
  | cons d ds ih =>
    obtain ⟨part, more, hpart, hmore, rfl⟩ := Declaration.lowerAll_cons_eq_ok.mp h
    obtain ⟨hd, hp⟩ := Declaration.part_of_lower hpart
    exact .cons hd hp (ih hmore)

/-- A source is a program with code, which a session puts after the code that it has. -/
theorem Session.add_eq_ok {s t : Session} {source : String} :
    (s.add source).value = .ok t ↔ ∃ p code, (parse source).value = .ok p ∧
      (p.resolve.value.lower s.entry).value = .ok code ∧
        t = ⟨s.entry, s.instructions ++ code⟩ := by
  cases hp : (parse source).value with
  | error e => simp [Session.add, hp]
  | ok p =>
    cases hl : (p.resolve.value.lower s.entry).value with
    | error u =>
      have hadd : (s.add source).value = .error (.unslotted u) := by
        simp only [Session.add, Session.addResolved, hp, hl]
        rfl
      simp [hadd, hl]
    | ok code =>
      have hadd : (s.add source).value = .ok ⟨s.entry, s.instructions ++ code⟩ := by
        simp only [Session.add, Session.addResolved, hp, hl]
        rfl
      simp [hadd, hl, eq_comm]

theorem compile_eq_ok_iff {entry source : String} {code : Code} :
    (compile entry source).value = .ok code ↔ ∃ p instructions, (parse source).value = .ok p ∧
      (p.resolve.value.lower entry).value = .ok instructions ∧
        code = .ofInstructions instructions := by
  unfold compile
  constructor
  · intro h
    cases hs : ((Session.start entry).add source).value with
    | error e => simp [hs, Except.map] at h
    | ok s =>
      obtain ⟨p, instructions, hp, hi, rfl⟩ := Session.add_eq_ok.mp hs
      simp only [hs] at h
      exact ⟨p, instructions, hp, hi, (Except.ok.inj h).symm⟩
  · rintro ⟨p, instructions, hp, hi, rfl⟩
    have hs := (Session.add_eq_ok (s := Session.start entry)).mpr ⟨p, instructions, hp, hi, rfl⟩
    simp only [hs]
    rfl

/-- Code comes from the program that was read. -/
theorem compile_eq_ok {entry source : String} {code : Code}
    (h : (compile entry source).value = .ok code) :
    ∃ p, (parse source).value = .ok p ∧ Layout entry p.declarations code.instructions := by
  obtain ⟨p, instructions, hp, hl, rfl⟩ := compile_eq_ok_iff.mp h
  have hds : p.resolve.value.declarations = p.declarations.map fun d => d.resolve.value := by
    simp [Program.resolve, Function.comp_def]
  rw [Program.lower, hds] at hl
  exact ⟨p, hp, .of_lower hl⟩

/-- Code that was compiled is in order. (a) Its marks are well nested. (b) It passes the check,
from the empty stack to the empty stack, as does the code of every declaration; a function is at
the height of its start before its epilogue. (c) Its layout is that of the program: the code of a
function is structured, so each loop has one break of its own, and nothing else has one. (d)
Imports, globals and definitions stand outside of all blocks, and the definitions are those of the
functions of the program, in order. -/
theorem compile_valid {entry source : String} {code : Code}
    (h : (compile entry source).value = .ok code) :
    ∃ p, (parse source).value = .ok p ∧
      WellNested code.instructions ∧
      check [] [] code.instructions = some ([], []) ∧
      Layout entry p.declarations code.instructions ∧
      OuterAtTop code.instructions ∧
      definitions code.instructions =
        p.functions.map fun f => (f.name, f.parameters.length) := by
  obtain ⟨p, hp, hl⟩ := compile_eq_ok h
  obtain ⟨hw, hpass, ho, hd⟩ := hl.outline
  exact ⟨p, hp, hw, hpass [], hl, ho, hd⟩

theorem compile_eq_ok_of_toOption {entry source : String} {code : Code}
    (h : (compile entry source).value.toOption = some code) :
    (compile entry source).value = .ok code := by
  cases hc : (compile entry source).value with
  | error e =>
    rw [hc] at h
    cases h
  | ok c =>
    rw [hc] at h
    exact congrArg _ (Option.some.inj h)

/-- A loop with a return inside an `if` and a store at an index. -/
theorem compile_valid_loop : ∃ code,
    (compile "main" ("function f(m) \x7bwhile(m) \x7b" ++
      "if(m) \x7breturn m;\x7d set m[m] = g;\x7d\x7d")).value = .ok code ∧
    WellNested code.instructions ∧ check [] [] code.instructions = some ([], []) ∧
    OuterAtTop code.instructions ∧ definitions code.instructions = [("f", 1)] := by
  have h : (compile "main" ("function f(m) \x7bwhile(m) \x7b" ++
      "if(m) \x7breturn m;\x7d set m[m] = g;\x7d\x7d")).value.toOption =
        some (.ofInstructions [.startBlock, .startBlock, .getSlot 0, .breakIf, .getSlot 0,
          .startBlock, .getSlot 0, .ret, .endBlock, .startBlock, .endBlock, .choose,
          .string "g", .getFree, .getSlot 0, .getSlot 0, .setIndex, .endBlock, .loop,
          .null, .ret, .endBlock, .define "f" 1]) := by
    decide +kernel
  have hok := compile_eq_ok_of_toOption h
  obtain ⟨p, -, hw, hc, -, ho, -⟩ := compile_valid hok
  exact ⟨_, hok, hw, hc, ho, rfl⟩

end StackScript
