/-
# Listings

An instruction is shown by its name and what belongs to it: names as they are, numbers in decimal,
and texts in quotes, so that it takes one line. A listing shows code with one instruction on a line,
two spaces further in for every block that it stands in. An end mark without a start mark leaves the
depth at zero.

Key definitions: `Instr.text`, `listing`.
-/
import StackScript.Code
import StackScript.Text.Written

namespace StackScript

/-- An instruction as text: its name, then what belongs to it. -/
def Instr.text : Instr → String
  | load => "Import"
  | define name parameters => "DefineFunction " ++ name ++ " " ++ decimal parameters
  | startBlock => "StartBlock"
  | endBlock => "EndBlock"
  | ret => "Return"
  | callKnown name arity => "CallKnown " ++ name ++ " " ++ decimal arity
  | callUnknown arity => "CallUnknown " ++ decimal arity
  | null => "NullConst"
  | boolean value => "BooleanConst " ++ if value then "true" else "false"
  | integer value => "IntegerConst " ++ signed value.toInt
  | string value => "StringConst " ++ quoted value
  | list count => "ListConst " ++ decimal count
  | getSlot slot => "GetLocal " ++ decimal slot
  | setSlot slot => "SetLocal " ++ decimal slot
  | drop => "Drop"
  | choose => "If"
  | loop => "Loop"
  | breakIf => "BreakIf"
  | declareGlobal => "DeclareGlobal"
  | getFree => "GetFree"
  | setFree => "SetFree"

/-- The lines of code that begins `depth` blocks in. -/
def listingFrom (depth : Nat) : List Instr → String
  | [] => ""
  | i :: is =>
    let own := if i = .endBlock then depth - 1 else depth
    let next := if i = .startBlock then own + 1 else own
    String.ofList (List.replicate (2 * own) ' ') ++ i.text ++ "\n" ++ listingFrom next is

/-- Code as a listing. -/
def listing (is : List Instr) : String := listingFrom 0 is

end StackScript
