/-
# Reading JSON

A strict reader of the bytes of one JSON text: blanks are spaces, tabs, newlines and carriage
returns, nothing may follow the value but blanks, and there are no comments and no commas before
a closing bracket. What a string stands for is not its shape: a string with bytes or surrogates
that are no text is read all the same, and has no text.

Key definitions: `Json.value`, `Json.read?`.
-/
import StackScript.Json
import StackScript.Reading
import StackScript.Text.Bytes
import StackScript.Text.Written

namespace StackScript
namespace Json

/-- The outcome of reading bytes. -/
abbrev ByteReading := Reading (List.length : List UInt8 → Nat) Unit

/-- The byte of a character of ASCII. -/
def byte (c : Char) : UInt8 := c.toNat.toUInt8

/-- A byte as a character. -/
def ofByte (b : UInt8) : Char := Char.ofNat b.toNat

/-- Bytes that may stand between two parts of a text. -/
def isSpace (b : UInt8) : Bool :=
  b == byte ' ' || b == byte '\t' || b == byte '\n' || b == byte '\r'

/-- Bytes of decimal digits. -/
def isDigit (b : UInt8) : Bool := byte '0' ≤ b && b ≤ byte '9'

/-! ### Strings -/

/-- A part of a string: a byte, or a code unit written by its number. -/
inductive Piece where
  | byte (b : UInt8)
  | unit (n : Nat)
  deriving DecidableEq, Repr

/-- The byte that a backslash and one more byte stand for. -/
def escape? (b : UInt8) : Option UInt8 :=
  if b = byte '"' ∨ b = byte '\\' ∨ b = byte '/' then some b
  else if b = byte 'b' then some 8
  else if b = byte 'f' then some 12
  else if b = byte 'n' then some 10
  else if b = byte 'r' then some 13
  else if b = byte 't' then some 9
  else none

/-- The number with the given four hexadecimal digits. -/
def unit? (a b c d : UInt8) : Option Nat := do
  let a ← hexValue? (ofByte a)
  let b ← hexValue? (ofByte b)
  let c ← hexValue? (ofByte c)
  let d ← hexValue? (ofByte d)
  return ((a * 16 + b) * 16 + c) * 16 + d

/-- The parts of a string after its opening quote, and what follows the closing one. -/
def pieces? : List UInt8 → Option (List Piece × List UInt8)
  | [] => none
  | b :: bs =>
    if b = byte '"' then some ([], bs)
    else if b = byte '\\' then
      match bs with
      | [] => none
      | e :: bs =>
        if e = byte 'u' then
          match bs with
          | a :: b :: c :: d :: bs =>
            match unit? a b c d with
            | none => none
            | some n => (pieces? bs).map fun (ps, rest) => (.unit n :: ps, rest)
          | _ => none
        else
          match escape? e with
          | none => none
          | some b => (pieces? bs).map fun (ps, rest) => (.byte b :: ps, rest)
    else if b < 32 then none
    else (pieces? bs).map fun (ps, rest) => (.byte b :: ps, rest)

/-- The bytes that the parts of a string stand for. A code unit of the first half of a pair has
to stand right before one of the second half. -/
def pieceBytes? : List Piece → Option (List UInt8)
  | [] => some []
  | .byte b :: ps => (pieceBytes? ps).map (b :: ·)
  | .unit n :: ps =>
    if 0xD800 ≤ n ∧ n < 0xDC00 then
      match ps with
      | .unit m :: ps =>
        if 0xDC00 ≤ m ∧ m < 0xE000 then
          (pieceBytes? ps).map
            (utf8 [Char.ofNat (0x10000 + (n - 0xD800) * 0x400 + (m - 0xDC00))] ++ ·)
        else none
      | _ => none
    else if 0xDC00 ≤ n ∧ n < 0xE000 then none
    else (pieceBytes? ps).map (utf8 [Char.ofNat n] ++ ·)

/-- The text that the parts of a string stand for. -/
def pieceText? (ps : List Piece) : Option String := do
  let bytes ← pieceBytes? ps
  let text ← ofUtf8? bytes
  return String.ofList text

/-- Less is left after a string than before it. -/
theorem length_lt_of_pieces? {bs rest : List UInt8} {ps : List Piece}
    (h : pieces? bs = some (ps, rest)) : rest.length < bs.length := by
  fun_induction pieces? bs generalizing ps rest <;>
    simp_all only [Option.map_eq_some_iff, Prod.exists, Prod.mk.injEq, Option.some.injEq,
      List.length_cons, reduceCtorEq]
  case case2 => obtain ⟨-, rfl⟩ := h; omega
  all_goals
    obtain ⟨qs, r, hq, -, rfl⟩ := h
    rename_i ih
    have := ih hq
    omega

/-- The text of a string after its opening quote. -/
def stringBody (bs : List UInt8) : ByteReading bs.length (Option String) :=
  match h : pieces? bs with
  | none => .fault ()
  | some (ps, rest) => .found (pieceText? ps) rest (length_lt_of_pieces? h)

/-! ### Numbers and words -/

/-- At least one digit. -/
def digitRun? (bs : List UInt8) : Option (List UInt8 × List UInt8) :=
  match bs.takeWhile isDigit with
  | [] => none
  | ds => some (ds, bs.dropWhile isDigit)

/-- The digits of a whole number, of which zero is the only one to begin with zero. -/
def wholeRun? : List UInt8 → Option (List UInt8 × List UInt8)
  | [] => none
  | b :: bs => if b = byte '0' then some ([b], bs) else digitRun? (b :: bs)

/-- What is left after the fraction of a number, and whether there was one. -/
def skipFraction? : List UInt8 → Option (Bool × List UInt8)
  | [] => some (false, [])
  | b :: bs =>
    if b = byte '.' then (digitRun? bs).map fun (_, rest) => (true, rest)
    else some (false, b :: bs)

/-- What is left after the exponent of a number, and whether there was one. -/
def skipExponent? : List UInt8 → Option (Bool × List UInt8)
  | [] => some (false, [])
  | b :: bs =>
    if b = byte 'e' ∨ b = byte 'E' then
      let bs := match bs with
        | s :: rest => if s = byte '+' ∨ s = byte '-' then rest else bs
        | [] => bs
      (digitRun? bs).map fun (_, rest) => (true, rest)
    else some (false, b :: bs)

/-- The value of a number with the given digits. -/
def numberOf (negative whole : Bool) (ds : List UInt8) : Json :=
  let n := digitsValue (ds.map ofByte)
  if !whole || (negative && n == 0) then .fraction
  else .integer (if negative then -(n : Int) else n)

/-- A number after its sign. -/
def number? (negative : Bool) (bs : List UInt8) : Option (Json × List UInt8) := do
  let (ds, rest) ← wholeRun? bs
  let (hasFraction, rest) ← skipFraction? rest
  let (hasExponent, rest) ← skipExponent? rest
  return (numberOf negative (!hasFraction && !hasExponent) ds, rest)

/-- What is left after a word. -/
def word? (word : String) (bs : List UInt8) : Option (List UInt8) :=
  let w := utf8 word.toList
  if w.isPrefixOf bs then some (bs.drop w.length) else none

/-- A value that is not made of others and is no string. -/
def scalar? (bs : List UInt8) : Option (Json × List UInt8) :=
  match bs with
  | [] => none
  | b :: rest =>
    if b = byte '-' then number? true rest
    else if isDigit b then number? false bs
    else if b = byte 't' then (word? "true" bs).map fun rest => (.boolean true, rest)
    else if b = byte 'f' then (word? "false" bs).map fun rest => (.boolean false, rest)
    else if b = byte 'n' then (word? "null" bs).map fun rest => (.null, rest)
    else none

theorem length_lt_of_digitRun? {bs ds rest : List UInt8} (h : digitRun? bs = some (ds, rest)) :
    rest.length < bs.length := by
  unfold digitRun? at h
  split at h
  · simp at h
  · next hne =>
    simp only [Option.some.injEq, Prod.mk.injEq] at h
    obtain ⟨-, rfl⟩ := h
    have hp := List.length_pos_iff.mpr hne
    have hl := congrArg List.length (List.takeWhile_append_dropWhile (p := isDigit) (l := bs))
    simp only [List.length_append] at hl
    omega

theorem length_lt_of_wholeRun? {bs ds rest : List UInt8} (h : wholeRun? bs = some (ds, rest)) :
    rest.length < bs.length := by
  unfold wholeRun? at h
  split at h
  · simp at h
  · split at h
    · simp_all
    · exact length_lt_of_digitRun? h

theorem length_le_of_skipFraction? {bs rest : List UInt8} {found : Bool}
    (h : skipFraction? bs = some (found, rest)) : rest.length ≤ bs.length := by
  unfold skipFraction? at h
  split at h
  · simp_all
  · split at h
    · obtain ⟨⟨ds, r⟩, hd, hr⟩ := Option.map_eq_some_iff.mp h
      have := length_lt_of_digitRun? hd
      simp_all
      omega
    · simp_all

theorem length_le_of_skipExponent? {bs rest : List UInt8} {found : Bool}
    (h : skipExponent? bs = some (found, rest)) : rest.length ≤ bs.length := by
  unfold skipExponent? at h
  split at h
  · simp_all
  · split at h
    · obtain ⟨⟨ds, r⟩, hd, hr⟩ := Option.map_eq_some_iff.mp h
      have := length_lt_of_digitRun? hd
      simp only [Prod.mk.injEq] at hr
      obtain ⟨-, rfl⟩ := hr
      split at this
      · split at this <;> simp_all <;> omega
      · simp_all
    · simp_all

theorem length_lt_of_number? {negative : Bool} {bs rest : List UInt8} {value : Json}
    (h : number? negative bs = some (value, rest)) : rest.length < bs.length := by
  simp only [number?, Option.bind_eq_bind, Option.bind_eq_some_iff, Prod.exists] at h
  obtain ⟨ds, r₁, h₁, hasFraction, r₂, h₂, hasExponent, r₃, h₃, h⟩ := h
  have := length_lt_of_wholeRun? h₁
  have := length_le_of_skipFraction? h₂
  have := length_le_of_skipExponent? h₃
  simp_all
  omega

theorem length_lt_of_word? {word : String} {bs rest : List UInt8} (hw : utf8 word.toList ≠ [])
    (h : word? word bs = some rest) : rest.length < bs.length := by
  unfold word? at h
  simp only at h
  split at h
  · next hp =>
    have := (List.isPrefixOf_iff_prefix.mp hp).length_le
    have := List.length_pos_iff.mpr hw
    simp only [Option.some.injEq] at h
    subst h
    simp only [List.length_drop]
    omega
  · simp at h

/-- Less is left after a value than before it. -/
theorem length_lt_of_scalar? {bs rest : List UInt8} {value : Json}
    (h : scalar? bs = some (value, rest)) : rest.length < bs.length := by
  unfold scalar? at h
  split at h
  · simp at h
  · next b bs =>
    split at h
    · have := length_lt_of_number? h
      simp only [List.length_cons]
      omega
    split at h
    · exact length_lt_of_number? h
    split at h
    · obtain ⟨r, hr, he⟩ := Option.map_eq_some_iff.mp h
      have := length_lt_of_word? (by decide) hr
      simp_all
    split at h
    · obtain ⟨r, hr, he⟩ := Option.map_eq_some_iff.mp h
      have := length_lt_of_word? (by decide) hr
      simp_all
    split at h
    · obtain ⟨r, hr, he⟩ := Option.map_eq_some_iff.mp h
      have := length_lt_of_word? (by decide) hr
      simp_all
    · simp at h

/-- The same value, as a reading. -/
def scalar (bs : List UInt8) : ByteReading bs.length Json :=
  match h : scalar? bs with
  | none => .fault ()
  | some (value, rest) => .found value rest (length_lt_of_scalar? h)

/-- A byte after blanks. -/
def mark (expected : UInt8) : (bs : List UInt8) → ByteReading bs.length Unit
  | [] => .fault ()
  | b :: bs =>
    if b = expected then .found () bs
    else if isSpace b then (mark expected bs).within
    else .fault ()

/-! ### Values -/

mutual

/-- A value, after blanks. -/
def value (bs : List UInt8) : ByteReading bs.length Json :=
  match bs with
  | [] => .fault ()
  | b :: rest =>
    if isSpace b then (value rest).within
    else if b = byte '"' then ((stringBody rest).map .string).within
    else if b = byte '[' then ((elements rest).map .array).within
    else if b = byte '\x7b' then ((members rest).map .object).within
    else scalar (b :: rest)
termination_by 2 * bs.length
decreasing_by all_goals (try simp only [List.length_cons] at *); omega

/-- The elements of an array after its opening bracket. -/
def elements (bs : List UInt8) : ByteReading bs.length (List Json) :=
  match bs with
  | [] => .fault ()
  | b :: rest =>
    if isSpace b then (elements rest).within
    else if b = byte ']' then .found [] rest
    else (value (b :: rest)).bind fun v rest _ => ((moreElements rest).map (v :: ·)).within
termination_by 2 * bs.length + 1
decreasing_by all_goals (try simp only [List.length_cons] at *); omega

/-- The elements of an array after one of them. -/
def moreElements (bs : List UInt8) : ByteReading bs.length (List Json) :=
  match bs with
  | [] => .fault ()
  | b :: rest =>
    if isSpace b then (moreElements rest).within
    else if b = byte ']' then .found [] rest
    else if b = byte ',' then
      (value rest).bind fun v rest _ => ((moreElements rest).map (v :: ·)).within
    else .fault ()
termination_by 2 * bs.length
decreasing_by all_goals (try simp only [List.length_cons] at *); omega

/-- The members of an object after its opening brace. -/
def members (bs : List UInt8) : ByteReading bs.length (List (Option String × Json)) :=
  match bs with
  | [] => .fault ()
  | b :: rest =>
    if isSpace b then (members rest).within
    else if b = byte '\x7d' then .found [] rest
    else (member (b :: rest)).bind fun m rest _ => ((moreMembers rest).map (m :: ·)).within
termination_by 2 * bs.length + 1
decreasing_by all_goals (try simp only [List.length_cons] at *); omega

/-- The members of an object after one of them. -/
def moreMembers (bs : List UInt8) : ByteReading bs.length (List (Option String × Json)) :=
  match bs with
  | [] => .fault ()
  | b :: rest =>
    if isSpace b then (moreMembers rest).within
    else if b = byte '\x7d' then .found [] rest
    else if b = byte ',' then
      (member rest).bind fun m rest _ => ((moreMembers rest).map (m :: ·)).within
    else .fault ()
termination_by 2 * bs.length
decreasing_by all_goals (try simp only [List.length_cons] at *); omega

/-- One member of an object, after blanks. -/
def member (bs : List UInt8) : ByteReading bs.length (Option String × Json) :=
  match bs with
  | [] => .fault ()
  | b :: rest =>
    if isSpace b then (member rest).within
    else if b = byte '"' then
      (stringBody rest).bind fun key rest _ =>
      (mark (byte ':') rest).bind fun _ rest _ =>
      ((value rest).map fun v => (key, v)).within
    else .fault ()
termination_by 2 * bs.length
decreasing_by all_goals (try simp only [List.length_cons] at *); omega

end

/-- The value of a JSON text. -/
def read? (bs : List UInt8) : Option Json :=
  match value bs with
  | .found v rest _ => if rest.all isSpace then some v else none
  | .fault _ => none

end Json
end StackScript
