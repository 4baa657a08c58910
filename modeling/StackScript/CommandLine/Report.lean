/-
# What a tool leaves behind

A run of a tool ends with a status, the text that it printed and the lines that it complained
or logged. A verbose run logs every event from the level of debugging up; any other run logs
nothing.

Key definitions: `Report`, `logLines`.
-/
import StackScript.Log

namespace StackScript
namespace CommandLine

/-- How a run ended. -/
inductive Status where
  | success
  | failure
  | misuse
  deriving DecidableEq, Repr

/-- The exit code of a status. -/
def Status.code : Status → Nat
  | success => 0
  | failure => 1
  | misuse => 2

/-- What a run printed, what it logged and complained of, line by line, and how it ended. -/
structure Report where
  status : Status
  output : String
  errors : List String
  deriving DecidableEq, Repr

/-- The name of a level in a log line, five characters wide. -/
def levelColumn : Level → String
  | .trace => "TRACE"
  | .debug => "DEBUG"
  | .info => "INFO "

/-- An event as a log line. -/
def logLine (e : Event) : String :=
  "[" ++ levelColumn e.level ++ " " ++ e.origin ++ "] " ++ e.message

/-- The log lines of a run. -/
def logLines (verbose : Bool) (log : List Event) : List String :=
  if verbose then (log.filter fun e => e.level ≠ .trace).map logLine else []

namespace Report

/-- The report of a run that did its work. -/
def done (output : String) (errors : List String) : Report := ⟨.success, output, errors⟩

/-- The report of a run that failed after some output and some log lines. -/
def failed (output : String) (errors : List String) (message : String) : Report :=
  ⟨.failure, output, errors ++ [message]⟩

end Report
end CommandLine
end StackScript
