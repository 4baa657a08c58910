/-
# The command line

The first argument names the tool, and the others are the tool's. Files are those of the
machine.

Key definitions: `machineDisk`, `main`.
-/
import StackScript.CommandLine.Tool

namespace StackScript
namespace CommandLine

/-- Why the machine did not read or write a file. -/
def fileError : IO.Error → FileError
  | .noFileOrDirectory .. => .notFound
  | .inappropriateType _ _ details =>
    if details.toLower = "not a directory" then .notDirectory else .isDirectory
  | e => .failed (toString e)

/-- The files of the machine. -/
def machineDisk : Disk IO where
  read path := do
    try return .ok (← IO.FS.readBinFile path).toList
    catch e => return .error (fileError e)
  write path bytes := do
    try
      IO.FS.writeBinFile path ⟨bytes.toArray⟩
      return .ok ()
    catch e => return .error (fileError e)

end CommandLine
end StackScript

open StackScript.CommandLine in
/-- Runs the tool that the first argument names. -/
def main (arguments : List String) : IO UInt32 := do
  match arguments.head?.bind Tool.ofName? with
  | none =>
    IO.eprintln "usage: (mercc | mercenary-lang) [OPTIONS]"
    return 2
  | some tool =>
    let report ← tool.run machineDisk arguments.tail
    IO.print report.output
    for line in report.errors do
      IO.eprintln line
    return report.status.code.toUInt32
