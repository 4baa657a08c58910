/-
# The compiler's command line

The compiler reads a source file, may print the resolved tree and the instructions, and writes a
bundle, by default beside the source file. What was printed before a failure stays printed.

Key definitions: `CompileOptions`, `CompileOptions.run`.
-/
import StackScript.Bundle
import StackScript.Code.Listing
import StackScript.CommandLine.Arguments
import StackScript.CommandLine.Report
import StackScript.Compiler
import StackScript.Files
import StackScript.Tree.Printer

namespace StackScript
namespace CommandLine

/-- What the compiler is asked to do. -/
structure CompileOptions where
  input : String
  output? : Option String
  entry : String
  dump : Bool
  ast : Bool
  verbose : Bool
  deriving DecidableEq, Repr

/-- The options of the compiler. -/
def compileChoices : List Choice :=
  [⟨"input", some 'i', .path, "Input source file"⟩,
    ⟨"output", some 'o', .path,
      "Output bundle (default: same name as input with .mrcb extension)"⟩,
    ⟨"entry", none, .text,
      "Function that terminates the program when it returns [default: main]"⟩,
    ⟨"dump", none, .flag, "Print the instruction listing to stdout"⟩,
    ⟨"ast", none, .flag, "Print the resolved syntax tree to stdout"⟩,
    ⟨"verbose", some 'v', .flag, "Log compiler progress to stderr"⟩]

namespace CompileOptions

/-- The request in the given options. -/
def ofGiven (given : Given) : Except Stop CompileOptions := do
  return {
    input := ← given.required "input"
    output? := given.value? "output"
    entry := (given.value? "entry").getD defaultEntry
    dump := given.has "dump"
    ast := given.has "ast"
    verbose := given.has "verbose" }

/-- Where the bundle goes. -/
def output (o : CompileOptions) : String :=
  o.output?.getD (withExtension Bundle.fileExtension o.input)

/-- A complaint about a file. -/
def complaint (path text : String) : String := path ++ ": " ++ text

/-- The last lines of a run that did its work. -/
def summary (o : CompileOptions) (code : Code) : String :=
  "Compiled successfully: " ++ o.input ++ " -> " ++ o.output ++ "\n"
    ++ "  Functions: " ++ decimal code.functions.length ++ "\n"
    ++ "  Instructions: " ++ decimal code.instructions.length ++ "\n"

/-- Compiles a source: what is printed on the way, and the code. -/
def build (o : CompileOptions) (source : String) :
    Logged (String × Except CompileError Code) :=
  let parsed := parse source
  match parsed.value with
  | .error e => ⟨parsed.log, "", .error (.syntaxError e)⟩
  | .ok program =>
    let resolved := program.resolve
    let tree := if o.ast then resolved.value.print else ""
    let added := (Session.start o.entry).addResolved resolved.value
    let log := parsed.log ++ resolved.log ++ added.log
    match added.value with
    | .error e => ⟨log, tree, .error (.unslotted e)⟩
    | .ok session =>
      let code := session.code
      ⟨log, tree ++ (if o.dump then listing code.instructions else ""), .ok code⟩

/-- Runs the compiler. -/
def run {m : Type → Type} [Monad m] (disk : Disk m) (o : CompileOptions) : m Report := do
  match ← disk.readText o.input with
  | .error e => return .failed "" [] (complaint o.input e.message)
  | .ok source =>
    let built := o.build source
    let (output, code?) := built.value
    let lines := logLines o.verbose built.log
    match code? with
    | .error e => return .failed output lines e.message
    | .ok code =>
      let bundle := Bundle.write none code
      match ← disk.write o.output bundle.value.bytes with
      | .error e => return .failed output lines (complaint o.output e.message)
      | .ok () =>
        match bundle.value.failure? with
        | some e => return .failed output lines (complaint o.output e.message)
        | none =>
          return .done (output ++ o.summary code) (lines ++ logLines o.verbose bundle.log)

end CompileOptions
end CommandLine
end StackScript
