/-
# From resolved trees to stack code

An expression becomes code that pushes its value: the operands from left to right, then the
operation. A call pushes its arguments before what is called. A statement leaves the stack as it
was. Every function ends by returning null, and the entry function asks for the end of the
process before that.

Lowering fails only at a `let` whose name has no slot.

Key definitions: `Expr.lower`, `Stmt.lower`, `Program.lower`.
-/
import StackScript.Code
import StackScript.Log
import StackScript.Tree

namespace StackScript

/-- A `let` whose name was given no slot. -/
structure Unslotted where
  name : String
  deriving DecidableEq, Repr

/-- The wording of the failure. -/
def Unslotted.message (u : Unslotted) : String :=
  "binding `" ++ u.name ++ "` was not assigned a slot"

/-- The known function of an operator. -/
def BinaryOp.routine : BinaryOp → String
  | equal => "~=="
  | notEqual => "~!="
  | greater => "~>"
  | greaterEqual => "~>="
  | less => "~<"
  | lessEqual => "~<="
  | and => "~&&"
  | or => "~||"
  | add => "~+"
  | subtract => "~-"
  | multiply => "~*"
  | divide => "~/"
  | remainder => "~%"

/-- The known function of an operator. -/
def UnaryOp.routine : UnaryOp → String
  | negate => "#-"
  | not => "#!"

namespace Instr

/-- Looks up an index: `[collection, key] → [value]`. -/
def getIndex : Instr := .callKnown "~[]" 2

/-- Stores at an index: `[value, collection, key] → []`. -/
def setIndex : Instr := .callKnown "==[]" 3

/-- Ends the process: `[code] → [result]`. -/
def exit : Instr := .callKnown "exit" 1

end Instr

/-- Code that pushes the value of a name. -/
def Ref.load : Ref → List Instr
  | .slot k => [.getSlot k]
  | .free n => [.string n, .getFree]

/-- Code that pops a value into a name. -/
def Ref.store : Ref → List Instr
  | .slot k => [.setSlot k]
  | .free n => [.string n, .setFree]

mutual

/-- Code that pushes the value of an expression. -/
def Expr.lower : Expr Ref → List Instr
  | .null => [.null]
  | .boolean value => [.boolean value]
  | .integer value => [.integer value]
  | .string value => [.string value]
  | .list elements => Expr.lowerAll elements ++ [.list elements.length]
  | .name n => n.load
  | .binary op left right => left.lower ++ right.lower ++ [.callKnown op.routine 2]
  | .unary op operand => operand.lower ++ [.callKnown op.routine 1]
  | .index collection key => collection.lower ++ key.lower ++ [.getIndex]
  | .call callee arguments =>
    Expr.lowerAll arguments ++ callee.lower ++ [.callUnknown arguments.length]

/-- Code that pushes the values of some expressions. -/
def Expr.lowerAll : List (Expr Ref) → List Instr
  | [] => []
  | e :: es => e.lower ++ Expr.lowerAll es

end

/-- Code that pops a value and stores it at the place that the indices lead to from a
collection on the stack: all indices but the last are looked up. -/
def Expr.lowerPlace : List (Expr Ref) → List Instr
  | [] => []
  | [last] => last.lower ++ [.setIndex]
  | e :: es => e.lower ++ [.getIndex] ++ Expr.lowerPlace es

/-- Code that pops a value into a name, or to a place inside it. -/
def Ref.storeAt (target : Ref) : List (Expr Ref) → List Instr
  | [] => target.store
  | indices => target.load ++ Expr.lowerPlace indices

mutual

/-- The code of a statement. -/
def Stmt.lower : Stmt Ref → Except Unslotted (List Instr)
  | .choose arms => arms.lower
  | .loop condition body => do
    let body ← Stmt.lowerAll body
    return [.startBlock] ++ condition.lower ++ [.breakIf] ++ body ++ [.endBlock, .loop]
  | .ret value => .ok (value.lower ++ [.ret])
  | .assign target indices value => .ok (value.lower ++ target.storeAt indices)
  | .declare (.slot k) initializer => .ok (initializer.lower ++ [.setSlot k])
  | .declare (.free n) _ => .error ⟨n⟩
  | .run value => .ok (value.lower ++ [.drop])

/-- The code of an `if`: each arm but the first is a conditional inside the one before. -/
def Arms.lower : Arms Ref → Except Unslotted (List Instr)
  | .done => .ok []
  | .otherwise body => Stmt.lowerAll body
  | .arm condition body rest => do
    let body ← Stmt.lowerAll body
    let rest ← rest.lower
    return condition.lower ++ [.startBlock] ++ body ++ [.endBlock]
      ++ [.startBlock] ++ rest ++ [.endBlock, .choose]

/-- The code of some statements. -/
def Stmt.lowerAll : List (Stmt Ref) → Except Unslotted (List Instr)
  | [] => .ok []
  | s :: ss => do
    let code ← s.lower
    let more ← Stmt.lowerAll ss
    return code ++ more

end

/-- What every function ends with. -/
def epilogue (entry name : String) : List Instr :=
  (if name = entry then [.integer 0, .exit] else []) ++ [.null, .ret, .endBlock]

/-- The code that defines a function. -/
def FunctionDef.lower (entry : String) (f : FunctionDef Ref) : Except Unslotted (List Instr) := do
  let body ← Stmt.lowerAll f.body
  return [.startBlock] ++ body ++ epilogue entry f.name ++ [.define f.name f.parameters.length]

/-- The code of a declaration. -/
def Declaration.lower (entry : String) : Declaration Ref → Except Unslotted (List Instr)
  | .load path => .ok [.string path, .load]
  | .global name => .ok [.string name, .declareGlobal]
  | .define f => f.lower entry

/-- The report of a declaration that was lowered to `code`. -/
def Declaration.lowerEvents (code : List Instr) : Declaration Ref → List Event
  | .define f => [.functionLowered f.name code.length]
  | _ => []

/-- The code of some declarations, up to the first that cannot be lowered. -/
def Declaration.lowerAll (entry : String) :
    List (Declaration Ref) → Logged (Except Unslotted (List Instr))
  | [] => ⟨[], .ok []⟩
  | d :: ds =>
    match d.lower entry with
    | .error u => ⟨[], .error u⟩
    | .ok code =>
      let more := Declaration.lowerAll entry ds
      ⟨d.lowerEvents code ++ more.log, more.value.map (code ++ ·)⟩

/-- The code of a program whose entry function is `entry`. -/
def Program.lower (entry : String) (p : Program Ref) : Logged (Except Unslotted (List Instr)) :=
  Declaration.lowerAll entry p.declarations

end StackScript
