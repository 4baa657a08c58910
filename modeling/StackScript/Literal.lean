/-
# Literals

What the text of a number or a string token stands for. A number is a run of decimal digits
whose value fits in 64 bits with a sign. The body of a string is characters that stand for
themselves and escapes: a backslash and a letter for a control character, a backslash before
a quote or backslash, and `\x` with two hexadecimal digits for a character of ASCII.

`escapeChar` and `encode` go the other way, and write every text so that it can be read back.

Key definitions: `Literal.integer`, `Literal.decode`, `Literal.string`, `Literal.encode`.
-/
import StackScript.SyntaxError
import StackScript.Text.Written

namespace StackScript
namespace Literal

/-- The largest integer that can be written, the largest of 64 bits with a sign. -/
def maxInteger : Nat := 0x7fffffffffffffff

/-- The value of a number token. -/
def integer (text : List Char) : Except Cause Int64 :=
  if text.all Char.isDigit then
    if digitsValue text ≤ maxInteger then .ok (Int64.ofNat (digitsValue text))
    else .error .numberOverflow
  else .error .invalidNumber

/-- What a backslash and one more character stand for. -/
def escaped? : Char → Option Char
  | 'n' => some '\n'
  | 't' => some '\t'
  | 'r' => some '\r'
  | 'f' => some '\x0c'
  | '0' => some '\x00'
  | '"' => some '"'
  | '\'' => some '\''
  | '\\' => some '\\'
  | _ => none

/-- The character of ASCII with the given two hexadecimal digits. -/
def ascii? (a b : Char) : Option Char :=
  match hexValue? a, hexValue? b with
  | some m, some n => if m * 16 + n < 128 then some (Char.ofNat (m * 16 + n)) else none
  | _, _ => none

/-- The text that the body of a string stands for. -/
def decode : List Char → Except Cause (List Char)
  | [] => .ok []
  | '\\' :: 'x' :: a :: b :: cs =>
    match ascii? a b with
    | some c => (decode cs).map (c :: ·)
    | none => .error .invalidHexEscape
  | '\\' :: 'x' :: _ => .error .invalidHexEscape
  | '\\' :: c :: cs =>
    match escaped? c with
    | some d => (decode cs).map (d :: ·)
    | none => .error .invalidEscape
  | ['\\'] => .error .invalidEscape
  | c :: cs => (decode cs).map (c :: ·)

/-- The text that a string token, quotes included, stands for. -/
def string (text : List Char) : Except Cause String :=
  (decode text.tail.dropLast).map String.ofList

/-- A character as it is written in a string. -/
def escapeChar (c : Char) : List Char :=
  if c = '\n' then ['\\', 'n']
  else if c = '\t' then ['\\', 't']
  else if c = '\r' then ['\\', 'r']
  else if c = '\x0c' then ['\\', 'f']
  else if c = '\x00' then ['\\', '0']
  else if c = '"' then ['\\', '"']
  else if c = '\\' then ['\\', '\\']
  else if c.toNat < 32 ∨ c.toNat = 127 then '\\' :: 'x' :: hexPair c.toNat
  else [c]

/-- A text as a string literal. -/
def encode (s : String) : String :=
  "\"" ++ String.ofList (s.toList.flatMap escapeChar) ++ "\""

end Literal
end StackScript
