/-
# What the stages report

Each stage of the compiler reports what it did as a list of events, in order, beside its
result. An event has a level, the stage it comes from, and one line of text.

Key definitions: `Event`, `Event.message`, `Logged`.
-/
import StackScript.Text.Written

namespace StackScript

/-- How much an event matters. -/
inductive Level where
  | trace
  | debug
  | info
  deriving DecidableEq, Repr

/-- The name of a level. -/
def Level.label : Level → String
  | .trace => "TRACE"
  | .debug => "DEBUG"
  | .info => "INFO"

/-- Something that a stage did. -/
inductive Event where
  /-- A function was read. -/
  | functionParsed (name : String) (parameters : Nat)
  /-- A program was read to its end. -/
  | programParsed (declarations : Nat)
  /-- A name was bound to a slot. -/
  | slotTaken (name : String) (slot : Nat)
  /-- The names of a function were resolved. -/
  | functionResolved (name : String) (slots : Nat)
  /-- A function was lowered to instructions. -/
  | functionLowered (name : String) (instructions : Nat)
  /-- A bundle was written out in full. -/
  | bundleWritten (instructions bytes : Nat)
  /-- A function of an inspected program. -/
  | functionInspected (name : String) (parameters statements : Nat)
  deriving DecidableEq, Repr

namespace Event

/-- Bindings are traced, an inspection informs, and all else is for debugging. -/
def level : Event → Level
  | slotTaken .. => .trace
  | functionInspected .. => .info
  | _ => .debug

/-- The part of the system that an event comes from. -/
def origin : Event → String
  | functionParsed .. | programParsed .. => "mercenary_language::parser"
  | slotTaken .. | functionResolved .. => "mercenary_compiler::resolve"
  | functionLowered .. => "mercenary_compiler::compiler"
  | bundleWritten .. => "mercenary_compiler::bundle"
  | functionInspected .. => "mercenary_lang"

/-- The text of an event. -/
def message : Event → String
  | functionParsed name parameters =>
    "parsed function `" ++ name ++ "` (" ++ decimal parameters ++ " parameter(s))"
  | programParsed declarations => "parsed " ++ decimal declarations ++ " declaration(s)"
  | slotTaken name slot => "`" ++ name ++ "` -> slot " ++ decimal slot
  | functionResolved name slots =>
    "resolved function `" ++ name ++ "`: " ++ decimal slots ++ " slot(s)"
  | functionLowered name instructions =>
    "lowered function `" ++ name ++ "`: " ++ decimal instructions ++ " instruction(s)"
  | bundleWritten instructions bytes =>
    "wrote bundle: " ++ decimal instructions ++ " instruction(s), " ++ decimal bytes
      ++ " byte(s) of code"
  | functionInspected name parameters statements =>
    "function `" ++ name ++ "`: " ++ decimal parameters ++ " parameter(s), "
      ++ decimal statements ++ " statement(s)"

/-- An event as a log record: its level and its text. -/
def record (e : Event) : String := e.level.label ++ " " ++ e.message

end Event

/-- A result, and what was reported on the way to it. -/
structure Logged (α : Type) where
  log : List Event
  value : α

end StackScript
