/-
# The inspector's command line

The inspector reads a source file and prints its tree, as source or as an outline of the
structure. A verbose run also names the functions.

Key definitions: `InspectOptions`, `InspectOptions.run`.
-/
import StackScript.CommandLine.Arguments
import StackScript.CommandLine.Report
import StackScript.Files
import StackScript.Source
import StackScript.Tree.Outline
import StackScript.Tree.Printer

namespace StackScript
namespace CommandLine

/-- What the inspector is asked to do. -/
structure InspectOptions where
  input : String
  debug : Bool
  verbose : Bool
  deriving DecidableEq, Repr

/-- The options of the inspector. -/
def inspectChoices : List Choice :=
  [⟨"input", some 'i', .path, "Source file to parse"⟩,
    ⟨"debug", none, .flag, "Print the tree's Debug form instead of source form"⟩,
    ⟨"verbose", some 'v', .flag, "Log parser progress to stderr"⟩]

namespace InspectOptions

/-- The request in the given options. -/
def ofGiven (given : Given) : Except Stop InspectOptions := do
  return {
    input := ← given.required "input"
    debug := given.has "debug"
    verbose := given.has "verbose" }

/-- What is logged of the functions of a program. -/
def functionEvents (p : Program String) : List Event :=
  p.functions.map fun f => .functionInspected f.name f.parameters.length f.body.length

/-- What is printed of a program. -/
def printed (o : InspectOptions) (p : Program String) : String :=
  if o.debug then p.outline.spread 0 ++ "\n" else p.print

/-- Runs the inspector. -/
def run {m : Type → Type} [Monad m] (disk : Disk m) (o : InspectOptions) : m Report := do
  match ← disk.readText o.input with
  | .error e => return .failed "" [] ("Error reading " ++ o.input ++ ": " ++ e.message)
  | .ok source =>
    let parsed := parse source
    match parsed.value with
    | .error e => return .failed "" (logLines o.verbose parsed.log) e.message
    | .ok program =>
      return .done (o.printed program) (logLines o.verbose (parsed.log ++ functionEvents program))

end InspectOptions
end CommandLine
end StackScript
