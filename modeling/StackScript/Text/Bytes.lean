/-
# Text in bytes and lines

Text is a list of characters. It is stored in UTF-8: not every list of bytes is a text, and then it
has none. Places in a text are counted in bytes of this form. `width` is the number of bytes that a
text takes, and `cut?` is the text from a byte offset on, which exists exactly when the offset falls
between two characters or at either end.

A human reader is given the position of a byte offset, the number of its line and of its column,
both counted from one. Lines end at newline characters, and a column counts characters, not bytes.
An offset past the end stands for the end.

Key definitions: `utf8`, `ofUtf8?`, `width`, `cut?`, `Position`, `position`, `locate?`.
Key theorems: `ofUtf8?_utf8`, `utf8_of_ofUtf8?`, `cut?_append`, `exists_append_of_cut?`.
-/

namespace StackScript

/-! ### Bytes -/

/-- The bytes of a text. -/
def utf8 (cs : List Char) : List UInt8 := cs.flatMap String.utf8EncodeChar

/-- The text of some bytes, if they are one. -/
def ofUtf8? (bs : List UInt8) : Option (List Char) :=
  bs.toByteArray.utf8Decode?.map Array.toList

@[simp] theorem utf8_nil : utf8 [] = [] := rfl

@[simp] theorem utf8_cons (c : Char) (cs : List Char) :
    utf8 (c :: cs) = String.utf8EncodeChar c ++ utf8 cs := rfl

@[simp] theorem utf8_append (a b : List Char) : utf8 (a ++ b) = utf8 a ++ utf8 b := by
  simp [utf8]

theorem toByteArray_utf8 (cs : List Char) : (utf8 cs).toByteArray = cs.utf8Encode := rfl

/-- A text is read back from its bytes. -/
theorem ofUtf8?_utf8 (cs : List Char) : ofUtf8? (utf8 cs) = some cs := by
  simp [ofUtf8?, toByteArray_utf8]

/-- The number of bytes that a text takes. -/
def width : List Char → Nat
  | [] => 0
  | c :: cs => c.utf8Size + width cs

@[simp] theorem width_nil : width [] = 0 := rfl

@[simp] theorem width_cons (c : Char) (cs : List Char) :
    width (c :: cs) = c.utf8Size + width cs := rfl

@[simp] theorem width_append : ∀ a b : List Char, width (a ++ b) = width a + width b
  | [], b => by simp
  | c :: a, b => by simp [width_append a b, Nat.add_assoc]

/-- A text that is not empty takes a byte. -/
theorem width_pos {cs : List Char} (h : cs ≠ []) : 0 < width cs := by
  cases cs with
  | nil => exact absurd rfl h
  | cons c cs =>
    have hc := c.utf8Size_pos
    rw [width_cons]
    omega

/-- The text from the byte offset `n` on, if `n` is not inside a character or past the end. -/
def cut? : List Char → Nat → Option (List Char)
  | [], n => if n = 0 then some [] else none
  | c :: cs, n =>
    if n = 0 then some (c :: cs)
    else if c.utf8Size ≤ n then cut? cs (n - c.utf8Size)
    else none

/-- Cutting at the width of a first part leaves the second. -/
theorem cut?_append (b : List Char) : ∀ a : List Char, cut? (a ++ b) (width a) = some b
  | [] => by cases b <;> simp [cut?]
  | c :: a => by
    have h : c.utf8Size ≠ 0 := Nat.ne_of_gt c.utf8Size_pos
    simp [cut?, h, cut?_append b a]

/-- A cut leaves an end of the text, and what is cut off has the width of the offset. -/
theorem exists_append_of_cut? : ∀ {cs : List Char} {n : Nat} {b : List Char}, cut? cs n = some b →
    ∃ a, cs = a ++ b ∧ width a = n
  | [], n, b, h => by
    by_cases hn : n = 0 <;> simp_all [cut?]
  | c :: cs, n, b, h => by
    unfold cut? at h
    split at h
    · exact ⟨[], by simp_all⟩
    · split at h
      · obtain ⟨a, rfl, ha⟩ := exists_append_of_cut? h
        exact ⟨c :: a, rfl, by simp; omega⟩
      · simp at h

/-! ### Lines and columns -/

/-- A place in a source for a human reader. -/
structure Position where
  line : Nat
  column : Nat
  deriving DecidableEq, Repr

/-- The position of the first character. -/
def Position.start : Position := ⟨1, 1⟩

/-- The position after the character `c`. -/
def Position.after (p : Position) (c : Char) : Position :=
  if c = '\n' then ⟨p.line + 1, 1⟩ else ⟨p.line, p.column + 1⟩

/-- The position of the character that holds the byte `n` of a text whose first character is
at `p`. -/
def positionFrom (p : Position) : List Char → Nat → Position
  | [], _ => p
  | c :: cs, n => if n < c.utf8Size then p else positionFrom (p.after c) cs (n - c.utf8Size)

/-- The position of a byte offset in a source. -/
def position (source : List Char) (offset : Nat) : Position :=
  positionFrom .start source offset

/-- The position of a byte offset, which may be past the end, if it is not inside a
character. -/
def locate? (source : List Char) (offset : Nat) : Option Position :=
  (cut? source (min offset (width source))).map fun _ => position source offset

end StackScript
