/-
# The stack machine

The machine that the instructions are written for. It has a stack of values and blocks, the slots
of the function that runs, and whatever state its host keeps. What a value is, what a call does
and when a value counts as true is up to the host, which may also stop the machine.

A block that is chosen is run before the code after it, and the block of a loop is run again and
again: the frames hold what comes after the code at hand. To leave a loop is to go on after its
frame, whatever lies above it. To return is to end the run, from any depth. The machine is stuck
where an instruction does not find what it takes from the stack.

Key definitions: `Host`, `Config`, `step`, `run`, `Reaches`, `Halts`.
Key theorems: `Halts.unique`, `HaltsBy.of_reaches`.
-/
import StackScript.Proofs.Blocks

namespace StackScript

/-- What a program meets when it runs: the values `V`, a state `σ` that calls may change, and
reasons `ε` to stop. -/
structure Host (V σ ε : Type) where
  null : V
  boolean : Bool → V
  integer : Int64 → V
  string : String → V
  /-- Whether a condition holds. -/
  truth : V → Bool
  list (elements : List V) : σ → Except ε (V × σ)
  known (name : String) (arguments : List V) : σ → Except ε (V × σ)
  unknown (callee : V) (arguments : List V) : σ → Except ε (V × σ)
  getFree (name : V) : σ → Except ε (V × σ)
  setFree (name value : V) : σ → Except ε (Unit × σ)
  load (path : V) : σ → Except ε (Unit × σ)
  declareGlobal (name : V) : σ → Except ε (Unit × σ)
  define (name : String) (parameters : Nat) (block : List Instr) : σ → Except ε (Unit × σ)

/-- The state that a function can change: its slots and the state of the host. -/
structure Store (V σ : Type) where
  slots : Nat → V
  outer : σ

/-- The state after a value was put in a slot. -/
def Store.set {V σ : Type} (s : Store V σ) (slot : Nat) (v : V) : Store V σ :=
  { s with slots := fun k => if k = slot then v else s.slots k }

namespace Machine

/-- What lies on the stack. -/
inductive Item (V : Type) where
  | value (v : V)
  | block (code : List Instr)

/-- What is to be done after the code at hand. -/
inductive Frame where
  /-- The code after a conditional. -/
  | resume (code : List Instr)
  /-- The block of a loop again, or the code after it when the loop is left. -/
  | again (block code : List Instr)

/-- The code at hand, the stack, the frames and the state. -/
structure Config (V σ : Type) where
  code : List Instr
  stack : List (Item V)
  frames : List Frame
  store : Store V σ

/-- How a run can end. -/
inductive Halt (V σ ε : Type) where
  /-- There is no code left. -/
  | fell (stack : List (Item V)) (store : Store V σ)
  | returned (value : V) (store : Store V σ)
  /-- The host stopped the machine. -/
  | aborted (reason : ε)
  | stuck

variable {V σ ε α : Type}

/-- Takes values from the stack, the last one first. -/
def popValues : Nat → List (Item V) → Option (List V × List (Item V))
  | 0, stack => some ([], stack)
  | n + 1, .value v :: stack => (popValues n stack).map fun p => (p.1 ++ [v], p.2)
  | _, _ => none

/-- The code after the innermost loop, and the frames around it. -/
def leaveLoop : List Frame → Option (List Instr × List Frame)
  | [] => none
  | .resume _ :: frames => leaveLoop frames
  | .again _ code :: frames => some (code, frames)

/-- Goes on if there is something to go on with. -/
def orStuck (x : Option α) (next : α → Except (Halt V σ ε) (Config V σ)) :
    Except (Halt V σ ε) (Config V σ) :=
  match x with
  | some a => next a
  | none => .error .stuck

/-- Goes on with what the host made of the state, and a stack that depends on its answer. -/
def Config.after (c : Config V σ) (answer : Except ε (α × σ)) (stack : α → List (Item V)) :
    Except (Halt V σ ε) (Config V σ) :=
  match answer with
  | .ok (a, outer) => .ok { c with stack := stack a, store := { c.store with outer } }
  | .error reason => .error (.aborted reason)

/-- Runs one instruction, which stood before the code of `c`. -/
def exec (H : Host V σ ε) (c : Config V σ) (i : Instr) : Except (Halt V σ ε) (Config V σ) :=
  match i, c.stack with
  | .startBlock, stack =>
    orStuck (splitBlock 0 c.code) fun (block, code) =>
      .ok { c with code, stack := .block block :: stack }
  | .ret, .value v :: _ => .error (.returned v c.store)
  | .callKnown name arity, stack =>
    orStuck (popValues arity stack) fun (arguments, stack) =>
      c.after (H.known name arguments c.store.outer) fun v =>
        -- storing at an index is the one call without a result
        if name = "==[]" then stack else .value v :: stack
  | .callUnknown arity, .value callee :: stack =>
    orStuck (popValues arity stack) fun (arguments, stack) =>
      c.after (H.unknown callee arguments c.store.outer) fun v => .value v :: stack
  | .null, stack => .ok { c with stack := .value H.null :: stack }
  | .boolean b, stack => .ok { c with stack := .value (H.boolean b) :: stack }
  | .integer n, stack => .ok { c with stack := .value (H.integer n) :: stack }
  | .string s, stack => .ok { c with stack := .value (H.string s) :: stack }
  | .list count, stack =>
    orStuck (popValues count stack) fun (elements, stack) =>
      c.after (H.list elements c.store.outer) fun v => .value v :: stack
  | .getSlot k, stack => .ok { c with stack := .value (c.store.slots k) :: stack }
  | .setSlot k, .value v :: stack => .ok { c with stack, store := c.store.set k v }
  | .drop, .value _ :: stack => .ok { c with stack }
  | .choose, .block no :: .block yes :: .value v :: stack =>
    .ok { c with
      code := if H.truth v then yes else no
      stack
      frames := .resume c.code :: c.frames }
  | .loop, .block block :: stack =>
    .ok { c with code := block, stack, frames := .again block c.code :: c.frames }
  | .breakIf, .value v :: stack =>
    if H.truth v then .ok { c with stack }
    else orStuck (leaveLoop c.frames) fun (code, frames) => .ok { c with code, stack, frames }
  | .getFree, .value name :: stack =>
    c.after (H.getFree name c.store.outer) fun v => .value v :: stack
  | .setFree, .value name :: .value v :: stack =>
    c.after (H.setFree name v c.store.outer) fun _ => stack
  | .load, .value path :: stack => c.after (H.load path c.store.outer) fun _ => stack
  | .declareGlobal, .value name :: stack =>
    c.after (H.declareGlobal name c.store.outer) fun _ => stack
  | .define name parameters, .block block :: stack =>
    c.after (H.define name parameters block c.store.outer) fun _ => stack
  | _, _ => .error .stuck

/-- One step of the machine. -/
def step (H : Host V σ ε) (c : Config V σ) : Except (Halt V σ ε) (Config V σ) :=
  match c.code, c.frames with
  | i :: code, _ => exec H { c with code } i
  | [], .resume code :: frames => .ok { c with code, frames }
  | [], .again block _ :: _ => .ok { c with code := block }
  | [], [] => .error (.fell c.stack c.store)

section Steps

/-! ### What each instruction does

One equation for every way in which an instruction finds what it needs. -/

variable (H : Host V σ ε) (k : List Instr) (S : List (Item V)) (F : List Frame) (s : Store V σ)

theorem step_null : step H ⟨.null :: k, S, F, s⟩ = .ok ⟨k, .value H.null :: S, F, s⟩ := rfl

theorem step_boolean (b : Bool) :
    step H ⟨.boolean b :: k, S, F, s⟩ = .ok ⟨k, .value (H.boolean b) :: S, F, s⟩ := rfl

theorem step_integer (n : Int64) :
    step H ⟨.integer n :: k, S, F, s⟩ = .ok ⟨k, .value (H.integer n) :: S, F, s⟩ := rfl

theorem step_string (t : String) :
    step H ⟨.string t :: k, S, F, s⟩ = .ok ⟨k, .value (H.string t) :: S, F, s⟩ := rfl

theorem step_getSlot (i : Nat) :
    step H ⟨.getSlot i :: k, S, F, s⟩ = .ok ⟨k, .value (s.slots i) :: S, F, s⟩ := rfl

theorem step_setSlot (i : Nat) (v : V) :
    step H ⟨.setSlot i :: k, .value v :: S, F, s⟩ = .ok ⟨k, S, F, s.set i v⟩ := rfl

theorem step_drop (v : V) : step H ⟨.drop :: k, .value v :: S, F, s⟩ = .ok ⟨k, S, F, s⟩ := rfl

theorem step_ret (v : V) :
    step H ⟨.ret :: k, .value v :: S, F, s⟩ = .error (.returned v s) := rfl

theorem step_getFree (n : V) : step H ⟨.getFree :: k, .value n :: S, F, s⟩ =
    Config.after ⟨k, .value n :: S, F, s⟩ (H.getFree n s.outer) fun v => .value v :: S := rfl

theorem step_setFree (n v : V) : step H ⟨.setFree :: k, .value n :: .value v :: S, F, s⟩ =
    Config.after ⟨k, .value n :: .value v :: S, F, s⟩ (H.setFree n v s.outer) fun _ => S := rfl

/-- A block is pushed. -/
theorem step_startBlock {p : Instr → Bool} {block : List Instr} (h : Nested p block) :
    step H ⟨.startBlock :: (block ++ .endBlock :: k), S, F, s⟩ =
      .ok ⟨k, .block block :: S, F, s⟩ := by
  change orStuck (splitBlock 0 (block ++ .endBlock :: k)) _ = _
  rw [h.splitBlock_endBlock]
  rfl

theorem step_choose (yes no : List Instr) (v : V) :
    step H ⟨.choose :: k, .block no :: .block yes :: .value v :: S, F, s⟩ =
      .ok ⟨if H.truth v then yes else no, S, .resume k :: F, s⟩ := rfl

theorem step_loop (block : List Instr) :
    step H ⟨.loop :: k, .block block :: S, F, s⟩ = .ok ⟨block, S, .again block k :: F, s⟩ := rfl

theorem step_breakIf_true {v : V} (h : H.truth v = true) :
    step H ⟨.breakIf :: k, .value v :: S, F, s⟩ = .ok ⟨k, S, F, s⟩ :=
  if_pos h

theorem step_breakIf_false {v : V} (h : H.truth v = false) (k' block : List Instr) :
    step H ⟨.breakIf :: k', .value v :: S, .again block k :: F, s⟩ = .ok ⟨k, S, F, s⟩ :=
  if_neg (by simp [h])

theorem step_resume : step H ⟨[], S, .resume k :: F, s⟩ = .ok ⟨k, S, F, s⟩ := rfl

theorem step_again (block : List Instr) :
    step H ⟨[], S, .again block k :: F, s⟩ = .ok ⟨block, S, .again block k :: F, s⟩ := rfl

theorem step_fell : step H ⟨[], S, [], s⟩ = .error (.fell S s) := rfl

/-- Values on a stack, the first one lowest. -/
def pushAll : List V → List (Item V) → List (Item V)
  | [], S => S
  | v :: vs, S => pushAll vs (.value v :: S)

theorem popValues_pushAll (vs : List V) (n : Nat) (S : List (Item V)) :
    popValues (vs.length + n) (pushAll vs S) = (popValues n S).map fun p => (p.1 ++ vs, p.2) := by
  induction vs generalizing n S with
  | nil => simp [pushAll]
  | cons v vs ih =>
    rw [List.length_cons, Nat.add_right_comm, Nat.add_assoc, pushAll, ih, popValues,
      Option.map_map]
    simp [Function.comp_def]

theorem popValues_length (vs : List V) : popValues vs.length (pushAll vs S) = some (vs, S) := by
  have h := popValues_pushAll vs 0 S
  simpa [popValues] using h

theorem step_list (vs : List V) : step H ⟨.list vs.length :: k, pushAll vs S, F, s⟩ =
    Config.after ⟨k, pushAll vs S, F, s⟩ (H.list vs s.outer) fun v => .value v :: S := by
  change orStuck (popValues vs.length (pushAll vs S)) _ = _
  rw [popValues_length]
  rfl

theorem step_callUnknown (f : V) (vs : List V) :
    step H ⟨.callUnknown vs.length :: k, .value f :: pushAll vs S, F, s⟩ =
      Config.after ⟨k, .value f :: pushAll vs S, F, s⟩ (H.unknown f vs s.outer)
        fun v => .value v :: S := by
  change orStuck (popValues vs.length (pushAll vs S)) _ = _
  rw [popValues_length]
  rfl

/-- A known call with a result. -/
theorem step_callKnown {name : String} (hn : name ≠ "==[]") (vs : List V) :
    step H ⟨.callKnown name vs.length :: k, pushAll vs S, F, s⟩ =
      Config.after ⟨k, pushAll vs S, F, s⟩ (H.known name vs s.outer) fun v => .value v :: S := by
  have hv : ∀ v : V, (if name = "==[]" then S else .value v :: S) = .value v :: S := fun v =>
    if_neg hn
  change orStuck (popValues vs.length (pushAll vs S)) _ = _
  rw [popValues_length, ← funext hv]
  rfl

/-- The known call without a result. -/
theorem step_setIndex (v collection key : V) :
    step H ⟨.setIndex :: k, .value key :: .value collection :: .value v :: S, F, s⟩ =
      Config.after ⟨k, .value key :: .value collection :: .value v :: S, F, s⟩
        (H.known "==[]" [v, collection, key] s.outer) fun _ => S := rfl

end Steps

/-! ### Runs -/

/-- Some steps of the machine. -/
def run (H : Host V σ ε) : Nat → Config V σ → Except (Halt V σ ε) (Config V σ)
  | 0, c => .ok c
  | n + 1, c => step H c >>= run H n

/-- The machine comes from the one configuration to the other. -/
def Reaches (H : Host V σ ε) (c c' : Config V σ) : Prop := ∃ n, run H n c = .ok c'

/-- The run ends like this. -/
def Halts (H : Host V σ ε) (c : Config V σ) (h : Halt V σ ε) : Prop := ∃ n, run H n c = .error h

/-- The run ends within some number of steps. -/
def HaltsBy (H : Host V σ ε) (n : Nat) (c : Config V σ) : Prop := ∃ h, run H n c = .error h

/-- The run does not end. -/
def RunsForever (H : Host V σ ε) (c : Config V σ) : Prop := ∀ n, ∃ c', run H n c = .ok c'

variable {H : Host V σ ε} {c c' c'' : Config V σ} {h : Halt V σ ε}

theorem run_add (m n : Nat) (c : Config V σ) : run H (m + n) c = run H m c >>= run H n := by
  induction m generalizing c with
  | zero => rw [Nat.zero_add]; rfl
  | succ m ih =>
    rw [Nat.succ_add, run, run]
    cases step H c with
    | error h => rfl
    | ok c' => exact ih c'

/-- What has ended stays as it is. -/
theorem run_of_error {n : Nat} (hn : run H n c = .error h) (m : Nat) :
    run H (n + m) c = .error h := by
  rw [run_add, hn]
  rfl

theorem Reaches.refl (c : Config V σ) : Reaches H c c := ⟨0, rfl⟩

theorem Reaches.trans (h₁ : Reaches H c c') (h₂ : Reaches H c' c'') : Reaches H c c'' := by
  obtain ⟨m, hm⟩ := h₁
  obtain ⟨n, hn⟩ := h₂
  refine ⟨m + n, ?_⟩
  rw [run_add, hm]
  exact hn

theorem Reaches.head (hs : step H c = .ok c') (h' : Reaches H c' c'') : Reaches H c c'' := by
  obtain ⟨n, hn⟩ := h'
  refine ⟨n + 1, ?_⟩
  rw [run, hs]
  exact hn

theorem Halts.of_step (hs : step H c = .error h) : Halts H c h := by
  refine ⟨1, ?_⟩
  rw [run, hs]
  rfl

theorem Halts.of_reaches (h₁ : Reaches H c c') (h₂ : Halts H c' h) : Halts H c h := by
  obtain ⟨m, hm⟩ := h₁
  obtain ⟨n, hn⟩ := h₂
  refine ⟨m + n, ?_⟩
  rw [run_add, hm]
  exact hn

theorem Halts.head (hs : step H c = .ok c') (h' : Halts H c' h) : Halts H c h :=
  .of_reaches (.head hs (.refl c')) h'

/-- A run ends in one way. -/
theorem Halts.unique {h' : Halt V σ ε} (h₁ : Halts H c h) (h₂ : Halts H c h') : h = h' := by
  obtain ⟨m, hm⟩ := h₁
  obtain ⟨n, hn⟩ := h₂
  have hm' := run_of_error hm n
  have hn' := run_of_error hn m
  rw [Nat.add_comm n m, hm'] at hn'
  exact Except.error.inj hn'

theorem runsForever_iff : RunsForever H c ↔ ∀ n, ¬ HaltsBy H n c := by
  refine forall_congr' fun n => ?_
  unfold HaltsBy
  cases run H n c <;> simp

/-- A run that ends goes through few steps from wherever it has come. -/
theorem HaltsBy.of_reaches {n : Nat} (hn : HaltsBy H n c) (hr : Reaches H c c') :
    ∃ m ≤ n, HaltsBy H m c' := by
  obtain ⟨h, hn⟩ := hn
  obtain ⟨k, hk⟩ := hr
  by_cases hle : k ≤ n
  · refine ⟨n - k, by omega, h, ?_⟩
    have hadd := run_add (H := H) k (n - k) c
    rw [show k + (n - k) = n by omega, hn, hk] at hadd
    exact hadd.symm
  · have herr := run_of_error hn (k - n)
    rw [show n + (k - n) = k by omega, hk] at herr
    exact nomatch herr

/-- It goes through fewer steps if it has made one. -/
theorem HaltsBy.of_step {n : Nat} (hn : HaltsBy H n c) (hs : step H c = .ok c') :
    ∃ m < n, HaltsBy H m c' := by
  obtain ⟨h, hn⟩ := hn
  cases n with
  | zero => exact nomatch hn
  | succ n =>
    rw [run, hs] at hn
    exact ⟨n, Nat.lt_succ_self n, h, hn⟩

end Machine

end StackScript
