/-
# The two tools

The compiler and the inspector, each run from its arguments.

Key definitions: `Tool`, `Tool.run`.
-/
import StackScript.CommandLine.Compile
import StackScript.CommandLine.Inspect

namespace StackScript
namespace CommandLine

/-- A tool of the command line. -/
inductive Tool where
  | compiler
  | inspector
  deriving DecidableEq, Repr

namespace Tool

/-- The name that a tool is called by. -/
def name : Tool → String
  | compiler => "mercc"
  | inspector => "mercenary-lang"

/-- The tool of a name. -/
def ofName? (s : String) : Option Tool := [compiler, inspector].find? fun tool => tool.name = s

/-- What a tool says of itself when asked for its version. -/
def versionText : Tool → String
  | compiler => "mercc " ++ Code.currentVersion ++ "\n"
  | inspector => "mercenary-language " ++ Code.currentVersion ++ "\n"

/-- What a tool is for. -/
def about : Tool → String
  | compiler => "Mercenary Compiler: compile source to a stack-machine bundle"
  | inspector => "Parse a Mercenary source file and print its syntax tree"

/-- The options of a tool. -/
def choices : Tool → List Choice
  | compiler => compileChoices
  | inspector => inspectChoices

/-- The report of a run that ends with its arguments. -/
def stopped (tool : Tool) : Stop → Report
  | .misuse cause => ⟨.misuse, "", [cause.message]⟩
  | .help => .done (helpText tool.name tool.about tool.choices) []
  | .version => .done tool.versionText []

/-- Runs a tool. -/
def run {m : Type → Type} [Monad m] (disk : Disk m) (tool : Tool) (arguments : List String) :
    m Report :=
  match readArguments tool.choices arguments, tool with
  | .error stop, tool => return tool.stopped stop
  | .ok given, compiler =>
    match CompileOptions.ofGiven given with
    | .error stop => return compiler.stopped stop
    | .ok o => o.run disk
  | .ok given, inspector =>
    match InspectOptions.ofGiven given with
    | .error stop => return inspector.stopped stop
    | .ok o => o.run disk

end Tool
end CommandLine
end StackScript
