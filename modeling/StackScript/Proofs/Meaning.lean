/-
# What resolved trees mean

The meaning of expressions, statements and functions, said by recursion on the tree and without
any code. It is relative to the same host as the machine: the two share what a value is and what
a call does. Which of the host's functions an operator stands for is said here once more, by name
(`BinaryOp.hostName`, `UnaryOp.hostName`), and not taken from the code that calls them.

Operands are evaluated from left to right, and the arguments of a call before what is called. An
assignment evaluates the value first, then the target, then one index after the other, each looked
up in what the ones before led to; with the last index the value is stored. Expressions always
come to an end. Statements may not, because of loops, so their meaning is a relation: a statement
that has no outcome runs forever.

Key definitions: `BinaryOp.hostName`, `UnaryOp.hostName`, `Expr.eval`, `Outcome`, `Stmt.Exec`,
`FunctionDef.Exec`.
-/
import StackScript.Proofs.Machine

namespace StackScript

variable {V σ ε α β : Type}

/-- A computation that may change the state, and that the host may stop. -/
abbrev Effect (V σ ε α : Type) := StateT (Store V σ) (Except ε) α

theorem Effect.bind_eq_ok {m : Effect V σ ε α} {f : α → Effect V σ ε β} {s : Store V σ}
    {r : β × Store V σ} :
    (m >>= f) s = .ok r ↔ ∃ a s', m s = .ok (a, s') ∧ f a s' = .ok r := by
  change (m s >>= fun p => f p.1 p.2) = .ok r ↔ _
  cases m s with
  | error x => simp [bind, Except.bind]
  | ok p =>
    constructor
    · exact fun h => ⟨p.1, p.2, rfl, h⟩
    · rintro ⟨a, s', ⟨⟩, h⟩
      exact h

/-- What the host does. -/
def Host.act (answer : σ → Except ε (α × σ)) : Effect V σ ε α := fun s =>
  (answer s.outer).map fun (a, outer) => (a, { s with outer })

/-- The value of a name. -/
def Ref.read (H : Host V σ ε) : Ref → Effect V σ ε V
  | .slot k => do return (← get).slots k
  | .free n => Host.act (H.getFree (H.string n))

/-- Gives a name a value. -/
def Ref.write (H : Host V σ ε) (v : V) : Ref → Effect V σ ε Unit
  | .slot k => modify (·.set k v)
  | .free n => Host.act (H.setFree (H.string n) v)

/-- The function of the host that an operator between two operands stands for. -/
def BinaryOp.hostName : BinaryOp → String
  | equal => "~=="
  | notEqual => "~!="
  | greater => "~>"
  | greaterEqual => "~>="
  | less => "~<"
  | lessEqual => "~<="
  | and => "~&&"
  | or => "~||"
  | add => "~+"
  | subtract => "~-"
  | multiply => "~*"
  | divide => "~/"
  | remainder => "~%"

/-- The function of the host that an operator before its operand stands for. -/
def UnaryOp.hostName : UnaryOp → String
  | negate => "#-"
  | not => "#!"

mutual

/-- The value of an expression. -/
def Expr.eval (H : Host V σ ε) : Expr Ref → Effect V σ ε V
  | .null => pure H.null
  | .boolean value => pure (H.boolean value)
  | .integer value => pure (H.integer value)
  | .string value => pure (H.string value)
  | .list elements => do
    let values ← Expr.evalAll H elements
    Host.act (H.list values)
  | .name n => n.read H
  | .binary op left right => do
    let a ← left.eval H
    let b ← right.eval H
    Host.act (H.known op.hostName [a, b])
  | .unary op operand => do
    let a ← operand.eval H
    Host.act (H.known op.hostName [a])
  | .index collection key => do
    let c ← collection.eval H
    let k ← key.eval H
    Host.act (H.known "~[]" [c, k])
  | .call callee arguments => do
    let values ← Expr.evalAll H arguments
    let f ← callee.eval H
    Host.act (H.unknown f values)

/-- The values of some expressions. -/
def Expr.evalAll (H : Host V σ ε) : List (Expr Ref) → Effect V σ ε (List V)
  | [] => pure []
  | e :: es => do
    let v ← e.eval H
    let vs ← Expr.evalAll H es
    return v :: vs

end

/-- Stores a value at the place that one or more indices lead to from a collection. -/
def Expr.storeAt (H : Host V σ ε) (v collection : V) (index : Expr Ref) :
    List (Expr Ref) → Effect V σ ε Unit
  | [] => do
    let k ← index.eval H
    let _ ← Host.act (H.known "==[]" [v, collection, k])
  | next :: indices => do
    let k ← index.eval H
    let inner ← Host.act (H.known "~[]" [collection, k])
    Expr.storeAt H v inner next indices

/-- Stores the value of an expression in a name, or at the place that the indices lead to from
it. -/
def Ref.assign (H : Host V σ ε) (target : Ref) (indices : List (Expr Ref)) (value : Expr Ref) :
    Effect V σ ε Unit := do
  let v ← value.eval H
  match indices with
  | [] => target.write H v
  | index :: indices =>
    let c ← target.read H
    Expr.storeAt H v c index indices

/-- How a statement can end. -/
inductive Outcome (V σ ε : Type) where
  /-- What follows the statement is next. -/
  | finished (s : Store V σ)
  /-- The function ends with a value. -/
  | returned (v : V) (s : Store V σ)
  /-- The host stopped the program. -/
  | aborted (reason : ε)

namespace Outcome

/-- The outcome of a computation. -/
def of (result : Except ε (α × Store V σ)) (next : α → Store V σ → Outcome V σ ε) :
    Outcome V σ ε :=
  match result with
  | .ok (a, s) => next a s
  | .error reason => .aborted reason

theorem of_bind_pure (m : Effect V σ ε α) (b : β) (s : Store V σ)
    (next : β → Store V σ → Outcome V σ ε) :
    of ((m >>= fun _ => pure b) s) next = of (m s) fun _ => next b := by
  change of (m s >>= fun p => .ok (b, p.2)) next = _
  cases m s <;> rfl

/-- What follows the statement is left out. -/
def Leaves : Outcome V σ ε → Prop
  | finished _ => False
  | returned _ _ => True
  | aborted _ => True

end Outcome

mutual

/-- A statement run from a state has an outcome. -/
inductive Stmt.Exec (H : Host V σ ε) : Stmt Ref → Store V σ → Outcome V σ ε → Prop
  | choose {arms s o} : Arms.Exec H arms s o → Stmt.Exec H (.choose arms) s o
  | loop {e body s o} : Rounds H e body s o → Stmt.Exec H (.loop e body) s o
  | ret {e s} : Stmt.Exec H (.ret e) s (.of (e.eval H s) .returned)
  | assign {n i e s} :
      Stmt.Exec H (.assign n i e) s (.of (n.assign H i e s) fun _ => .finished)
  | declare {k e s} :
      Stmt.Exec H (.declare (.slot k) e) s (.of (e.eval H s) fun v s' => .finished (s'.set k v))
  | run {e s} : Stmt.Exec H (.run e) s (.of (e.eval H s) fun _ => .finished)

/-- The first arm whose condition holds is run, or the `else` if there is none. -/
inductive Arms.Exec (H : Host V σ ε) : Arms Ref → Store V σ → Outcome V σ ε → Prop
  | done {s} : Arms.Exec H .done s (.finished s)
  | otherwise {body s o} : Stmt.ExecAll H body s o → Arms.Exec H (.otherwise body) s o
  | yes {e body rest s v s' o} : e.eval H s = .ok (v, s') → H.truth v = true →
      Stmt.ExecAll H body s' o → Arms.Exec H (.arm e body rest) s o
  | no {e body rest s v s' o} : e.eval H s = .ok (v, s') → H.truth v = false →
      Arms.Exec H rest s' o → Arms.Exec H (.arm e body rest) s o
  | abort {e body rest s x} : e.eval H s = .error x → Arms.Exec H (.arm e body rest) s (.aborted x)

/-- The rounds of a loop from here on: the condition is tested before each. -/
inductive Rounds (H : Host V σ ε) : Expr Ref → List (Stmt Ref) → Store V σ → Outcome V σ ε → Prop
  | stop {e body s v s'} : e.eval H s = .ok (v, s') → H.truth v = false →
      Rounds H e body s (.finished s')
  | round {e body s v s₁ s₂ o} : e.eval H s = .ok (v, s₁) → H.truth v = true →
      Stmt.ExecAll H body s₁ (.finished s₂) → Rounds H e body s₂ o → Rounds H e body s o
  | leave {e body s v s' o} : e.eval H s = .ok (v, s') → H.truth v = true →
      Stmt.ExecAll H body s' o → o.Leaves → Rounds H e body s o
  | abort {e body s x} : e.eval H s = .error x → Rounds H e body s (.aborted x)

/-- Statements are run one after the other. -/
inductive Stmt.ExecAll (H : Host V σ ε) : List (Stmt Ref) → Store V σ → Outcome V σ ε → Prop
  | nil {s} : Stmt.ExecAll H [] s (.finished s)
  | next {t ts s s' o} : Stmt.Exec H t s (.finished s') → Stmt.ExecAll H ts s' o →
      Stmt.ExecAll H (t :: ts) s o
  | leave {t ts s o} : Stmt.Exec H t s o → o.Leaves → Stmt.ExecAll H (t :: ts) s o

end

/-- What a function does after its statements: it returns null, and the entry function asks for
the end of the process before that. -/
def FunctionDef.finish (H : Host V σ ε) (entry : String) (f : FunctionDef Ref) :
    Effect V σ ε V :=
  if f.name = entry then do
    let _ ← Host.act (H.known "exit" [H.integer 0])
    return H.null
  else return H.null

/-- A function run from a state has an outcome. -/
inductive FunctionDef.Exec (H : Host V σ ε) (entry : String) (f : FunctionDef Ref) :
    Store V σ → Outcome V σ ε → Prop
  | leave {s o} : Stmt.ExecAll H f.body s o → o.Leaves → FunctionDef.Exec H entry f s o
  | fall {s s'} : Stmt.ExecAll H f.body s (.finished s') →
      FunctionDef.Exec H entry f s (.of (f.finish H entry s') .returned)

end StackScript
