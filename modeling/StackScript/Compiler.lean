/-
# Compiling sources

To compile a source is to read it, to resolve its names and to lower it. A session does this
for one source after the other, and the code of each is put after that of the ones before. A
source that cannot be compiled leaves the session as it was.

Key definitions: `compile`, `Session`, `Session.add`.
-/
import StackScript.Code.Lowering
import StackScript.Scope
import StackScript.Source

namespace StackScript

/-- Why a source was not compiled. -/
inductive CompileError where
  | syntaxError (error : SyntaxError)
  | unslotted (error : Unslotted)
  deriving DecidableEq, Repr

/-- The wording of an error. -/
def CompileError.message : CompileError → String
  | syntaxError e => e.message
  | unslotted e => e.message

/-- The entry function when no other is named. -/
def defaultEntry : String := "main"

/-- Code that grows source by source. -/
structure Session where
  entry : String
  instructions : List Instr
  deriving DecidableEq, Repr

namespace Session

/-- A session without code. -/
def start (entry : String) : Session := ⟨entry, []⟩

/-- Adds the code of a resolved program. -/
def addResolved (s : Session) (p : Program Ref) : Logged (Except Unslotted Session) :=
  let lowered := p.lower s.entry
  ⟨lowered.log, lowered.value.map fun code => { s with instructions := s.instructions ++ code }⟩

/-- Adds the code of a source. -/
def add (s : Session) (source : String) : Logged (Except CompileError Session) :=
  let parsed := parse source
  match parsed.value with
  | .error e => ⟨parsed.log, .error (.syntaxError e)⟩
  | .ok program =>
    let resolved := program.resolve
    let added := s.addResolved resolved.value
    ⟨parsed.log ++ resolved.log ++ added.log, added.value.mapError .unslotted⟩

/-- The code of a session. -/
def code (s : Session) : Code := .ofInstructions s.instructions

end Session

/-- The code of a source whose entry function is `entry`. -/
def compile (entry source : String) : Logged (Except CompileError Code) :=
  let added := (Session.start entry).add source
  ⟨added.log, added.value.map Session.code⟩

end StackScript
