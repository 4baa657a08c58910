/-
# Syntax trees

A program is a list of declarations. Trees are parametric in the type of the names in them. In a
tree that was read a name is a text. In a resolved tree it is what the text refers to: a slot of the
function, or a free name that is looked up when the program runs. Both can be written in a source
and shown in an outline.

The chain of an `if` statement is one type, `Arms`: any number of conditional arms, then an `else`
or none. That a chain has at least one arm is not part of the type.

Key definitions: `Ref`, `Nominal`, `Expr`, `Stmt`, `Arms`, `FunctionDef`, `Declaration`, `Program`.
-/
import StackScript.Outline
import StackScript.Text.Written

namespace StackScript

/-! ### Names -/

/-- What a name refers to. -/
inductive Ref where
  /-- A slot of the function. -/
  | slot (index : Nat)
  /-- A name that the function does not bind. -/
  | free (name : String)
  deriving DecidableEq, Repr

/-- Types whose values stand for names in a tree. -/
class Nominal (ν : Type) where
  /-- The name in a source. -/
  spell : ν → String
  /-- The name in an outline. -/
  outline : ν → Outline

instance : Nominal String where
  spell name := name
  outline name := .atom (quoted name)

instance : Nominal Ref where
  spell
    | .slot index => "$" ++ decimal index
    | .free name => name
  outline
    | .slot index => .wrap "Local" (.atom (decimal index))
    | .free name => .wrap "Free" (.atom (quoted name))

/-! ### Trees -/

/-- The operators between two operands. -/
inductive BinaryOp where
  | equal
  | notEqual
  | greater
  | greaterEqual
  | less
  | lessEqual
  | and
  | or
  | add
  | subtract
  | multiply
  | divide
  | remainder
  deriving DecidableEq, Repr

/-- How an operator is written. -/
def BinaryOp.spelling : BinaryOp → String
  | equal => "=="
  | notEqual => "!="
  | greater => ">"
  | greaterEqual => ">="
  | less => "<"
  | lessEqual => "<="
  | and => "&"
  | or => "|"
  | add => "+"
  | subtract => "-"
  | multiply => "*"
  | divide => "/"
  | remainder => "%"

/-- The operators before one operand. -/
inductive UnaryOp where
  | negate
  | not
  deriving DecidableEq, Repr

/-- How an operator is written. -/
def UnaryOp.spelling : UnaryOp → String
  | negate => "-"
  | not => "!"

/-- Expressions. -/
inductive Expr (ν : Type) where
  | null
  | boolean (value : Bool)
  | integer (value : Int64)
  | string (value : String)
  | list (elements : List (Expr ν))
  | name (name : ν)
  | binary (op : BinaryOp) (left right : Expr ν)
  | unary (op : UnaryOp) (operand : Expr ν)
  | index (collection key : Expr ν)
  | call (callee : Expr ν) (arguments : List (Expr ν))
  deriving BEq, Repr

mutual

/-- Statements. -/
inductive Stmt (ν : Type) where
  /-- The first arm whose condition holds. -/
  | choose (arms : Arms ν)
  | loop (condition : Expr ν) (body : List (Stmt ν))
  /-- Ends the function. -/
  | ret (value : Expr ν)
  /-- Stores a value in a name, or at the place that the indices lead to from it. -/
  | assign (target : ν) (indices : List (Expr ν)) (value : Expr ν)
  /-- Binds a new name. -/
  | declare (name : ν) (initializer : Expr ν)
  /-- Evaluates for the effect alone. -/
  | run (value : Expr ν)
  deriving BEq, Repr

/-- What an `if` chooses from. -/
inductive Arms (ν : Type) where
  /-- No `else`. -/
  | done
  | otherwise (body : List (Stmt ν))
  | arm (condition : Expr ν) (body : List (Stmt ν)) (rest : Arms ν)
  deriving BEq, Repr

end

/-- A function. -/
structure FunctionDef (ν : Type) where
  name : String
  parameters : List ν
  body : List (Stmt ν)
  deriving BEq, Repr

/-- Declarations. -/
inductive Declaration (ν : Type) where
  /-- Takes in the code at a path. -/
  | load (path : String)
  /-- Makes a name known everywhere. -/
  | global (name : String)
  | define (function : FunctionDef ν)
  deriving BEq, Repr

/-- A program. -/
structure Program (ν : Type) where
  declarations : List (Declaration ν)
  deriving BEq, Repr

namespace Program

variable {ν : Type}

/-- The functions of a program in source order. -/
def functions (p : Program ν) : List (FunctionDef ν) :=
  p.declarations.filterMap fun
    | .define f => some f
    | _ => none

end Program

namespace Arms

variable {ν : Type}

/-- The conditional arms of a chain. -/
def branches : Arms ν → List (Expr ν × List (Stmt ν))
  | done => []
  | otherwise _ => []
  | arm condition body rest => (condition, body) :: rest.branches

/-- The `else` of a chain. -/
def otherwise? : Arms ν → Option (List (Stmt ν))
  | done => none
  | otherwise body => some body
  | arm _ _ rest => rest.otherwise?

/-- A chain from its conditional arms and its `else`. -/
def ofBranches (otherwise? : Option (List (Stmt ν))) : List (Expr ν × List (Stmt ν)) → Arms ν
  | [] => match otherwise? with
    | none => done
    | some body => otherwise body
  | (condition, body) :: rest => arm condition body (ofBranches otherwise? rest)

end Arms

end StackScript
