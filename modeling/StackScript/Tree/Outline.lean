/-
# Trees as outlines

The structure of a tree with all of its constructors and fields.

Key definitions: `Expr.outline`, `Stmt.outline`, `Program.outline`.
-/
import StackScript.Tree

namespace StackScript

/-- The name of an operator in an outline. -/
def BinaryOp.label : BinaryOp → String
  | equal => "Equal"
  | notEqual => "NotEqual"
  | greater => "GreaterThan"
  | greaterEqual => "GreaterOrEqual"
  | less => "LessThan"
  | lessEqual => "LessOrEqual"
  | and => "And"
  | or => "Or"
  | add => "Add"
  | subtract => "Subtract"
  | multiply => "Multiply"
  | divide => "Divide"
  | remainder => "Remainder"

/-- The name of an operator in an outline. -/
def UnaryOp.label : UnaryOp → String
  | negate => "Negate"
  | not => "Not"

variable {ν : Type} [Nominal ν]

mutual

/-- The outline of an expression. -/
def Expr.outline : Expr ν → Outline
  | .null => .atom "Null"
  | .boolean value => .wrap "Boolean" (.atom (if value then "true" else "false"))
  | .integer value => .wrap "Integer" (.atom (signed value.toInt))
  | .string value => .wrap "String" (.atom (quoted value))
  | .list elements => .wrap "List" (.list (Expr.outlineAll elements))
  | .name n => .wrap "Identifier" (Nominal.outline n)
  | .binary op left right =>
    .record "Binary"
      [("flavor", .atom op.label), ("left", left.outline), ("right", right.outline)]
  | .unary op operand =>
    .record "Unary" [("flavor", .atom op.label), ("operand", operand.outline)]
  | .index collection key =>
    .record "Index" [("collection", collection.outline), ("key", key.outline)]
  | .call callee arguments =>
    .record "Call"
      [("callee", callee.outline), ("arguments", .list (Expr.outlineAll arguments))]

/-- The outlines of some expressions. -/
def Expr.outlineAll : List (Expr ν) → List Outline
  | [] => []
  | e :: es => e.outline :: Expr.outlineAll es

end

mutual

/-- The outline of a statement. -/
def Stmt.outline : Stmt ν → Outline
  | .choose arms =>
    .record "If"
      [("branches", .list arms.outlineBranches), ("otherwise", arms.outlineOtherwise)]
  | .loop condition body =>
    .record "While"
      [("condition", condition.outline), ("body", .list (Stmt.outlineAll body))]
  | .ret value => .record "Return" [("value", value.outline)]
  | .assign target indices value =>
    .record "Assignment"
      [("target", Nominal.outline target), ("indices", .list (Expr.outlineAll indices)),
        ("value", value.outline)]
  | .declare name initializer =>
    .record "VariableDeclaration"
      [("name", Nominal.outline name), ("initializer", initializer.outline)]
  | .run value => .record "Do" [("value", value.outline)]

/-- The outlines of the conditional arms of an `if`. -/
def Arms.outlineBranches : Arms ν → List Outline
  | .done => []
  | .otherwise _ => []
  | .arm condition body rest =>
    .record "Branch"
      [("condition", condition.outline), ("body", .list (Stmt.outlineAll body))]
      :: rest.outlineBranches

/-- The outline of the `else` of an `if`. -/
def Arms.outlineOtherwise : Arms ν → Outline
  | .done => .atom "None"
  | .otherwise body => .wrap "Some" (.list (Stmt.outlineAll body))
  | .arm _ _ rest => rest.outlineOtherwise

/-- The outlines of some statements. -/
def Stmt.outlineAll : List (Stmt ν) → List Outline
  | [] => []
  | s :: ss => s.outline :: Stmt.outlineAll ss

end

/-- The outline of a function. -/
def FunctionDef.outline (f : FunctionDef ν) : Outline :=
  .record "Function"
    [("name", .atom (quoted f.name)), ("parameters", .list (f.parameters.map Nominal.outline)),
      ("body", .list (Stmt.outlineAll f.body))]

/-- The outline of a declaration. -/
def Declaration.outline : Declaration ν → Outline
  | .load path => .record "Import" [("path", .atom (quoted path))]
  | .global name => .record "Global" [("name", .atom (quoted name))]
  | .define f => .wrap "Function" f.outline

/-- The outline of a program. -/
def Program.outline (p : Program ν) : Outline :=
  .record "Program" [("declarations", .list (p.declarations.map Declaration.outline))]

end StackScript
