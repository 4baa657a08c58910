/-
# From trees to sources

A tree is printed with one statement on a line, four spaces for each level, and a blank line
between declarations. Every operation stands in parentheses of its own, so the text can be read
only one way.

Key definitions: `Expr.print`, `Stmt.print`, `Declaration.print`, `Program.print`.
-/
import StackScript.Literal
import StackScript.Tree

namespace StackScript

open Outline (commas indent)

variable {ν : Type} [Nominal ν]

mutual

/-- An expression as source. -/
def Expr.print : Expr ν → String
  | .null => "null"
  | .boolean value => if value then "true" else "false"
  | .integer value => signed value.toInt
  | .string value => Literal.encode value
  | .list elements => "[" ++ commas (Expr.printAll elements) ++ "]"
  | .name n => Nominal.spell n
  | .binary op left right =>
    "(" ++ left.print ++ " " ++ op.spelling ++ " " ++ right.print ++ ")"
  | .unary op operand => "(" ++ op.spelling ++ operand.print ++ ")"
  | .index collection key => collection.print ++ "[" ++ key.print ++ "]"
  | .call callee arguments => callee.print ++ "(" ++ commas (Expr.printAll arguments) ++ ")"

/-- Each of some expressions as source. -/
def Expr.printAll : List (Expr ν) → List String
  | [] => []
  | e :: es => e.print :: Expr.printAll es

end

/-- The indices of an assignment's target. -/
def Expr.printIndices : List (Expr ν) → String
  | [] => ""
  | e :: es => "[" ++ e.print ++ "]" ++ Expr.printIndices es

mutual

/-- A statement `depth` levels in. -/
def Stmt.print (depth : Nat) : Stmt ν → String
  | .choose arms => arms.print depth ""
  | .loop condition body =>
    "while (" ++ condition.print ++ ") " ++ Stmt.printBlock depth body
  | .ret value => "return " ++ value.print ++ ";"
  | .assign target indices value =>
    "set " ++ Nominal.spell target ++ Expr.printIndices indices ++ " = " ++ value.print ++ ";"
  | .declare name initializer =>
    "let " ++ Nominal.spell name ++ " = " ++ initializer.print ++ ";"
  | .run value => "do " ++ value.print ++ ";"

/-- The arms of an `if`; `lead` is what joins the first of them to the one before it. -/
def Arms.print (depth : Nat) (lead : String) : Arms ν → String
  | .done => ""
  | .otherwise body => " else " ++ Stmt.printBlock depth body
  | .arm condition body rest =>
    lead ++ "if (" ++ condition.print ++ ") " ++ Stmt.printBlock depth body
      ++ rest.print depth " else "

/-- Statements in braces, the last of which is `depth` levels in. -/
def Stmt.printBlock (depth : Nat) : List (Stmt ν) → String
  | [] => "\x7b\x7d"
  | s :: ss =>
    "\x7b\n" ++ (indent (depth + 1) ++ s.print (depth + 1) ++ "\n")
      ++ Stmt.printLines (depth + 1) ss ++ indent depth ++ "\x7d"

/-- Statements, each on a line of its own. -/
def Stmt.printLines (depth : Nat) : List (Stmt ν) → String
  | [] => ""
  | s :: ss => indent depth ++ s.print depth ++ "\n" ++ Stmt.printLines depth ss

end

/-- A function as source. -/
def FunctionDef.print (f : FunctionDef ν) : String :=
  "function " ++ f.name ++ "(" ++ commas (f.parameters.map Nominal.spell) ++ ") "
    ++ Stmt.printBlock 0 f.body

/-- A declaration as source. -/
def Declaration.print : Declaration ν → String
  | .load path => "import " ++ Literal.encode path ++ ";"
  | .global name => "global " ++ name ++ ";"
  | .define f => f.print

/-- Declarations with a blank line between them. -/
def Declaration.printAll : List (Declaration ν) → String
  | [] => ""
  | [d] => d.print ++ "\n"
  | d :: ds => d.print ++ "\n\n" ++ Declaration.printAll ds

/-- A program as source. -/
def Program.print (p : Program ν) : String := Declaration.printAll p.declarations

end StackScript
