/-
# Outlines

An outline shows the structure of a value as text: names of constructors and fields, and groups
of items in braces, parentheses or brackets. `compact` writes it on one line, `spread` puts every
item on a line of its own, four spaces further in and with a comma after it.

Key definitions: `Outline`, `Outline.compact`, `Outline.spread`.
-/

namespace StackScript

/-- The texts around the items of a group. -/
inductive Outline.Fence where
  | braces
  | parens
  | brackets
  deriving DecidableEq, Repr

/-- The structure of a value. -/
inductive Outline where
  /-- A text that is not taken apart. -/
  | atom (text : String)
  /-- A field with its name. -/
  | field (label : String) (value : Outline)
  /-- Items behind a name, which is empty for a list. -/
  | group (head : String) (fence : Outline.Fence) (items : List Outline)
  deriving Repr

namespace Outline

/-- A value with named fields. -/
def record (head : String) (fields : List (String × Outline)) : Outline :=
  group head .braces (fields.map fun (label, value) => field label value)

/-- A value with one item that has no name. -/
def wrap (head : String) (item : Outline) : Outline := group head .parens [item]

/-- A list. -/
def list (items : List Outline) : Outline := group "" .brackets items

/-- Texts with a comma and a space between them. -/
def commas : List String → String
  | [] => ""
  | [s] => s
  | s :: ss => s ++ ", " ++ commas ss

/-- Four spaces for each level. -/
def indent (depth : Nat) : String := String.ofList (List.replicate (4 * depth) ' ')

namespace Fence

/-- Puts items on the line of the group they belong to. -/
def inline (fence : Fence) (head items : String) : String :=
  match fence with
  | braces => head ++ " \x7b " ++ items ++ " \x7d"
  | parens => head ++ "(" ++ items ++ ")"
  | brackets => head ++ "[" ++ items ++ "]"

/-- Puts the lines of the items between the first and the last line of a group. -/
def around (fence : Fence) (depth : Nat) (head items : String) : String :=
  match fence with
  | braces => head ++ " \x7b\n" ++ items ++ indent depth ++ "\x7d"
  | parens => head ++ "(\n" ++ items ++ indent depth ++ ")"
  | brackets => head ++ "[\n" ++ items ++ indent depth ++ "]"

end Fence

mutual

/-- An outline on one line. -/
def compact : Outline → String
  | atom text => text
  | field label value => label ++ ": " ++ value.compact
  | group head fence items => fence.inline head (commas (compactAll items))

/-- Outlines, each on one line. -/
def compactAll : List Outline → List String
  | [] => []
  | o :: os => o.compact :: compactAll os

end

mutual

/-- An outline whose first line is `depth` levels in. A list without items stays on its line. -/
def spread (depth : Nat) : Outline → String
  | atom text => text
  | field label value => label ++ ": " ++ value.spread depth
  | group head _ [] => head ++ "[]"
  | group head fence (o :: os) =>
    fence.around depth head
      (indent (depth + 1) ++ o.spread (depth + 1) ++ ",\n" ++ spreadAll (depth + 1) os)

/-- Outlines, each on lines of its own. -/
def spreadAll (depth : Nat) : List Outline → String
  | [] => ""
  | o :: os => indent depth ++ o.spread depth ++ ",\n" ++ spreadAll depth os

end

end Outline

end StackScript
