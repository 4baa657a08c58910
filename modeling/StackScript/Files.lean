/-
# Files

A tool reads and writes files by path. It does so through a `Disk`, which is either the disk of
the machine or a set of files in memory.

In memory, files are kept by the names on the way to them from the working directory, and a
directory is there as long as something is in it. A path is walked part by part: each part is
looked for in a directory, an empty part or `.` stays, and `..` goes up. Parts and paths have a
greatest length. Nothing is known above the working directory but that there are directories.

Key definitions: `Disk`, `Files`, `Files.disk`, `withExtension`.
-/
import StackScript.Text.Bytes

namespace StackScript

/-- Why a file was not read or written. -/
inductive FileError where
  | notFound
  | notDirectory
  | isDirectory
  | nameTooLong
  | notText
  | failed (text : String)
  deriving DecidableEq, Repr

/-- The wording of an error. -/
def FileError.message : FileError → String
  | notFound => "No such file or directory (os error 2)"
  | notDirectory => "Not a directory (os error 20)"
  | isDirectory => "Is a directory (os error 21)"
  | nameTooLong => "File name too long (os error 36)"
  | notText => "stream did not contain valid UTF-8"
  | failed text => text

/-- Access to files by path. -/
structure Disk (m : Type → Type) where
  read : String → m (Except FileError (List UInt8))
  write : String → List UInt8 → m (Except FileError Unit)

/-- The text in the bytes of a file. -/
def fileText (bytes : List UInt8) : Except FileError String :=
  match ofUtf8? bytes with
  | some cs => .ok (String.ofList cs)
  | none => .error .notText

/-- Reads a file as text. -/
def Disk.readText {m : Type → Type} [Monad m] (disk : Disk m) (path : String) :
    m (Except FileError String) := do
  return (← disk.read path).bind fileText

/-! ### Paths -/

/-- The parts of a path between its slashes. -/
def pathParts : List Char → List String
  | [] => [""]
  | c :: cs =>
    if c = '/' then "" :: pathParts cs
    else
      match pathParts cs with
      | [] => [String.singleton c]
      | part :: parts => (String.singleton c ++ part) :: parts

/-- The most bytes of a part. -/
def maxPartBytes : Nat := 255

/-- The most bytes of a path. -/
def maxPathBytes : Nat := 4095

/-- Whether a name is `..`, where `back` is the path to its end, from right to left. -/
def namesParent (back : List Char) : Bool :=
  match back with
  | ['.', '.'] => true
  | '.' :: '.' :: '/' :: _ => true
  | _ => false

/-- The path with another extension. What follows the last point of the file name is dropped, and
the extension stands in its place; a name without a point, or with none but the one it starts
with, is kept and gets a point and the extension. If `..` is what dropping leaves of the name, it
is the directory above, which has no extension, and the path ends there. -/
def withExtension (ext path : String) : String :=
  let kept := path.toList.reverse.dropWhile fun c => c ≠ '.' ∧ c ≠ '/'
  if namesParent kept then String.ofList kept.reverse
  else
    match kept with
    | '.' :: c :: _ => if c = '/' then path ++ "." ++ ext else String.ofList kept.reverse ++ ext
    | _ => path ++ "." ++ ext

/-! ### Files in memory -/

/-- Files by the names on the way to them from the working directory. -/
structure Files where
  entries : List (List String × List UInt8)
  deriving DecidableEq, Repr

/-- Where a walk has come to: names from the working directory, or somewhere above it. -/
inductive Place where
  | under (names : List String)
  | above
  deriving DecidableEq, Repr

namespace Files

/-- The bytes of a file. -/
def bytes? (files : Files) (names : List String) : Option (List UInt8) :=
  files.entries.lookup names

/-- Whether there is a directory: the working directory, or one that a file is in. -/
def hasDirectory (files : Files) (names : List String) : Bool :=
  names.isEmpty || files.entries.any fun entry => names.isPrefixOf entry.1 && names != entry.1

/-- Puts bytes in a file, new or not. -/
def put (files : Files) (names : List String) (bytes : List UInt8) : Files :=
  ⟨(names, bytes) :: files.entries.filter fun entry => entry.1 != names⟩

/-- Files with the given paths and bytes. -/
def ofList (files : List (String × List UInt8)) : Files :=
  ⟨files.map fun (path, bytes) =>
    ((pathParts path.toList).filter fun part => part != "" && part != ".", bytes)⟩

/-- Fails where there is no directory to look for a part in. -/
def checkDirectory (files : Files) : Place → Except FileError Unit
  | .above => .ok ()
  | .under names =>
    if files.hasDirectory names then .ok ()
    else if (files.bytes? names).isSome then .error .notDirectory
    else .error .notFound

/-- The place of one part as seen from a directory. -/
def step (place : Place) (part : String) : Except FileError Place :=
  if part = "" ∨ part = "." then .ok place
  else if maxPartBytes < width part.toList then .error .nameTooLong
  else
    match place with
    | .above => if part = ".." then .ok .above else .error .notFound
    | .under names =>
      if part = ".." then .ok (if names.isEmpty then .above else .under names.dropLast)
      else .ok (.under (names ++ [part]))

/-- Where the parts of a path lead to from a place. -/
def walk (files : Files) (place : Place) : List String → Except FileError Place
  | [] => .ok place
  | part :: parts =>
    match files.checkDirectory place with
    | .error e => .error e
    | .ok () =>
      match step place part with
      | .error e => .error e
      | .ok next => files.walk next parts

/-- Where a path starts. -/
def startOf (path : String) : Except FileError Place :=
  if maxPathBytes < width path.toList then .error .nameTooLong
  else .ok (if path.toList.head? = some '/' then .above else .under [])

/-- The bytes of the file at a path. -/
def read (files : Files) (path : String) : Except FileError (List UInt8) := do
  match ← files.walk (← startOf path) (pathParts path.toList) with
  | .above => .error .isDirectory
  | .under names =>
    if files.hasDirectory names then .error .isDirectory
    else
      match files.bytes? names with
      | some bytes => .ok bytes
      | none => .error .notFound

/-- The last part of a path that is not empty, the parts before it, and whether slashes follow
it. -/
def target? (path : String) : Option (List String × String × Bool) :=
  let back := (pathParts path.toList).reverse
  match back.dropWhile (· = "") with
  | [] => none
  | last :: front => some (front.reverse, last, back.head? = some "")

/-- Where a file goes that is written at a path, in a directory that is there. -/
def destination (files : Files) (path : String) : Except FileError (List String) := do
  let start ← startOf path
  match target? path with
  | none => .error .isDirectory
  | some (front, last, slashes) =>
    let directory ← files.walk start front
    files.checkDirectory directory
    if slashes ∨ last = "." ∨ last = ".." then .error .isDirectory
    else
      match ← step directory last with
      | .above => .error .isDirectory
      | .under names => if files.hasDirectory names then .error .isDirectory else .ok names

/-- Writes a file at a path. -/
def write (files : Files) (path : String) (bytes : List UInt8) : Except FileError Files :=
  (files.destination path).map fun names => files.put names bytes

/-- The files of `after` that are not the same in `before`, by path. -/
def changes (before after : Files) : List (String × List UInt8) :=
  (after.entries.filter fun entry => before.bytes? entry.1 != some entry.2).map
    fun (names, bytes) => ("/".intercalate names, bytes)

/-- Files in memory as a disk. -/
def disk : Disk (StateM Files) where
  read path := do return (← get).read path
  write path bytes := do
    match (← get).write path bytes with
    | .error e => return .error e
    | .ok files =>
      set files
      return .ok ()

end Files
end StackScript
