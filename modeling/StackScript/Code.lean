/-
# Stack code

The code of a program is one flat list of instructions for a stack machine. A block is the code
between a start and an end mark; it is pushed as a value, and conditionals, loops and function
definitions take blocks from the stack.

Key definitions: `Instr`, `Code`, `Code.functions`.
-/

namespace StackScript

/-- Instructions, with the values that they pop and push. -/
inductive Instr where
  /-- `[path] → []` -/
  | load
  /-- `[block] → []` -/
  | define (name : String) (parameters : Nat)
  /-- Begins a block. -/
  | startBlock
  /-- Ends a block and pushes it. -/
  | endBlock
  /-- `[value] →`, and ends the function. -/
  | ret
  /-- `[arguments…] → [result]`; storing at an index has no result. -/
  | callKnown (name : String) (arity : Nat)
  /-- `[arguments…, callee] → [result]` -/
  | callUnknown (arity : Nat)
  /-- `[] → [null]` -/
  | null
  /-- `[] → [value]` -/
  | boolean (value : Bool)
  /-- `[] → [value]` -/
  | integer (value : Int64)
  /-- `[] → [value]` -/
  | string (value : String)
  /-- `[elements…] → [list]` -/
  | list (count : Nat)
  /-- `[] → [value]` -/
  | getSlot (slot : Nat)
  /-- `[value] → []` -/
  | setSlot (slot : Nat)
  /-- `[value] → []` -/
  | drop
  /-- `[condition, block, block] → []`, and runs one of the blocks. -/
  | choose
  /-- `[block] → []`, and runs the block again and again. -/
  | loop
  /-- `[condition] → []`, and leaves the innermost loop unless the condition holds. -/
  | breakIf
  /-- `[name] → []` -/
  | declareGlobal
  /-- `[name] → [value]` -/
  | getFree
  /-- `[value, name] → []` -/
  | setFree
  deriving DecidableEq, Repr

/-- A compiled program. -/
structure Code where
  /-- The version of the compiler that made it. -/
  version : String
  instructions : List Instr
  deriving DecidableEq, Repr

namespace Code

/-- The version of this compiler. -/
def currentVersion : String := "0.1.0"

/-- Code of this compiler. -/
def ofInstructions (instructions : List Instr) : Code := ⟨currentVersion, instructions⟩

/-- The names of the functions that the code defines, in order. -/
def functions (code : Code) : List String :=
  code.instructions.filterMap fun
    | .define name _ => some name
    | _ => none

end Code

end StackScript
