/-
# JSON values

What a JSON text says, as far as a reader of records needs it. A number is an integer if it is
written without a fraction and an exponent; of other numbers, and of minus zero, no value is
kept. A string may hold bytes or escapes that are no text.

A record is an object that has each of its fields once, among others that mean nothing, or an
array of its fields in order.

Key definitions: `Json`, `Json.fields?`, `Json.quote`, `Json.writeObject`, `Json.writeArray`.
-/
import StackScript.Text.Written

namespace StackScript

/-- What a JSON text says. -/
inductive Json where
  | null
  | boolean (value : Bool)
  | integer (value : Int)
  /-- A number that is no integer. -/
  | fraction
  /-- A string, and its text if it has one. -/
  | string (text : Option String)
  | array (elements : List Json)
  | object (members : List (Option String × Json))
  deriving Repr

namespace Json

/-! ### What a value stands for -/

/-- The text of a string. -/
def text? : Json → Option String
  | string t => t
  | _ => none

/-- A truth value. -/
def boolean? : Json → Option Bool
  | boolean b => some b
  | _ => none

/-- An integer of 64 bits with a sign. -/
def int64? : Json → Option Int64
  | integer i => if -0x8000000000000000 ≤ i ∧ i < 0x8000000000000000 then some (Int64.ofInt i) else none
  | _ => none

/-- A count, which has 64 bits without a sign. -/
def count? : Json → Option Nat
  | integer i => if 0 ≤ i ∧ i < 0x10000000000000000 then some i.toNat else none
  | _ => none

/-- The elements of an array. -/
def elements? : Json → Option (List Json)
  | array es => some es
  | _ => none

/-- The value of the one member with a key. -/
def member? (members : List (Option String × Json)) (key : String) : Option Json :=
  match members.filter (·.1 = some key) with
  | [(_, value)] => some value
  | _ => none

/-- The fields of a record in the order of their names. All keys of an object have to be
texts. -/
def fields? (names : List String) : Json → Option (List Json)
  | array es => if es.length = names.length then some es else none
  | object members =>
    if members.all (·.1.isSome) then names.mapM (member? members) else none
  | _ => none

/-! ### Writing -/

/-- A character as it is written in a string. -/
def escapeChar (c : Char) : List Char :=
  if c = '"' then ['\\', '"']
  else if c = '\\' then ['\\', '\\']
  else if c = '\x08' then ['\\', 'b']
  else if c = '\t' then ['\\', 't']
  else if c = '\n' then ['\\', 'n']
  else if c = '\x0c' then ['\\', 'f']
  else if c = '\r' then ['\\', 'r']
  else if c.toNat < 32 then ['\\', 'u', '0', '0'] ++ hexPair c.toNat
  else [c]

/-- A text as a string. -/
def quote (s : String) : String :=
  "\"" ++ String.ofList (s.toList.flatMap escapeChar) ++ "\""

/-- Texts with a comma between them. -/
def join : List String → String
  | [] => ""
  | [s] => s
  | s :: ss => s ++ "," ++ join ss

/-- An array of values that are written already. -/
def writeArray (elements : List String) : String := "[" ++ join elements ++ "]"

/-- An object of values that are written already. -/
def writeObject (members : List (String × String)) : String :=
  "\x7b" ++ join (members.map fun (key, value) => quote key ++ ":" ++ value) ++ "\x7d"

end Json

end StackScript
