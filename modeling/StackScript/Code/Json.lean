/-
# Code as JSON

An instruction with nothing but its name is the name as a string. Any other is an object with
one member, whose key is the name; a value alone stands there as it is, and named ones stand in
an object. Code is an object of its version and its instructions.

Reading takes more than is written: a name alone may also stand as a key before null, and named
values may stand in an array in order.

Key definitions: `Instr.toJson`, `Instr.ofJson?`, `Code.toJson`, `Code.ofJson?`.
-/
import StackScript.Code
import StackScript.Json

namespace StackScript

open Json (quote writeObject writeArray)

namespace Instr

/-- The name of an instruction. -/
def label : Instr → String
  | load => "Import"
  | define .. => "DefineFunction"
  | startBlock => "StartBlock"
  | endBlock => "EndBlock"
  | ret => "Return"
  | callKnown .. => "CallKnown"
  | callUnknown .. => "CallUnknown"
  | null => "NullConst"
  | boolean .. => "BooleanConst"
  | integer .. => "IntegerConst"
  | string .. => "StringConst"
  | list .. => "ListConst"
  | getSlot .. => "GetLocal"
  | setSlot .. => "SetLocal"
  | drop => "Drop"
  | choose => "If"
  | loop => "Loop"
  | breakIf => "BreakIf"
  | declareGlobal => "DeclareGlobal"
  | getFree => "GetFree"
  | setFree => "SetFree"

/-- What belongs to an instruction, as JSON. -/
def payload? : Instr → Option String
  | define name parameters =>
    some (writeObject [("name", quote name), ("param_count", decimal parameters)])
  | callKnown name arity => some (writeObject [("name", quote name), ("arity", decimal arity)])
  | callUnknown arity => some (writeObject [("arity", decimal arity)])
  | boolean value => some (if value then "true" else "false")
  | integer value => some (signed value.toInt)
  | string value => some (quote value)
  | list count => some (writeObject [("count", decimal count)])
  | getSlot slot => some (writeObject [("slot", decimal slot)])
  | setSlot slot => some (writeObject [("slot", decimal slot)])
  | _ => none

/-- An instruction as JSON. -/
def toJson (i : Instr) : String :=
  match i.payload? with
  | none => quote i.label
  | some payload => writeObject [(i.label, payload)]

/-- The instructions with nothing but a name. -/
def bare : List Instr :=
  [load, startBlock, endBlock, ret, null, drop, choose, loop, breakIf, declareGlobal, getFree,
    setFree]

/-- The instruction with a name and nothing else. -/
def ofLabel? (name : String) : Option Instr := bare.find? (·.label = name)

/-- The instruction with a name and one count that has a name too. -/
def ofCount? (field : String) (make : Nat → Instr) (payload : Json) : Option Instr :=
  match payload.fields? [field] with
  | some [n] => n.count?.map make
  | _ => none

/-- The instruction with a name, a text and a count. -/
def ofNamed? (field : String) (make : String → Nat → Instr) (payload : Json) : Option Instr :=
  match payload.fields? ["name", field] with
  | some [name, n] => do
    let name ← name.text?
    let n ← n.count?
    return make name n
  | _ => none

/-- The instruction with a name and what belongs to it. -/
def ofMember? (name : String) (payload : Json) : Option Instr :=
  match name with
  | "DefineFunction" => ofNamed? "param_count" define payload
  | "CallKnown" => ofNamed? "arity" callKnown payload
  | "CallUnknown" => ofCount? "arity" callUnknown payload
  | "BooleanConst" => payload.boolean?.map boolean
  | "IntegerConst" => payload.int64?.map integer
  | "StringConst" => payload.text?.map string
  | "ListConst" => ofCount? "count" list payload
  | "GetLocal" => ofCount? "slot" getSlot payload
  | "SetLocal" => ofCount? "slot" setSlot payload
  | _ =>
    match payload with
    | .null => ofLabel? name
    | _ => none

/-- The instruction that a JSON value stands for. -/
def ofJson? : Json → Option Instr
  | .string (some name) => ofLabel? name
  | .object [(some name, payload)] => ofMember? name payload
  | _ => none

end Instr

namespace Code

/-- Code as JSON. -/
def toJson (code : Code) : String :=
  writeObject
    [("version", quote code.version), ("instructions", writeArray (code.instructions.map Instr.toJson))]

/-- The code that a JSON value stands for. -/
def ofJson? (json : Json) : Option Code :=
  match json.fields? ["version", "instructions"] with
  | some [version, instructions] => do
    let version ← version.text?
    let elements ← instructions.elements?
    let instructions ← elements.mapM Instr.ofJson?
    return ⟨version, instructions⟩
  | _ => none

end Code

end StackScript
