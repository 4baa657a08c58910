/-
# Numbers and texts in writing

Numbers are written in base ten with no leading zero, a negative one after a minus sign, and read
back digit by digit. Code points are written in base sixteen with lower-case letters, without
padding or in two places, and read with letters of either case.

A quoted text stands in double quotes on one line in which every character can be seen: quotes,
backslashes and the common control characters have a short escape, and characters that are not
printable, or that would attach to the one before, are written by code point.

Key definitions: `digits`, `decimal`, `signed`, `digitsValue`, `hex`, `hexPair`, `hexValue?`,
`quoted`.
-/
import StackScript.Text.Classes

namespace StackScript

/-! ### Decimal numbers -/

/-- The character of a digit below ten. -/
def digitChar (d : Nat) : Char := Char.ofNat (48 + d)

/-- The decimal digits of a number, most significant first. -/
def digits (n : Nat) : List Char :=
  if n < 10 then [digitChar n] else digits (n / 10) ++ [digitChar (n % 10)]
termination_by n
decreasing_by omega

/-- A number in decimal. -/
def decimal (n : Nat) : String := String.ofList (digits n)

/-- An integer in decimal. -/
def signed (i : Int) : String :=
  if i < 0 then "-" ++ decimal i.natAbs else decimal i.natAbs

/-- The number that a run of digits stands for, after a run that stands for `acc`. -/
def digitsValueFrom (acc : Nat) : List Char → Nat
  | [] => acc
  | c :: cs => digitsValueFrom (acc * 10 + (c.toNat - 48)) cs

/-- The number that a run of digits stands for. -/
def digitsValue (cs : List Char) : Nat := digitsValueFrom 0 cs

/-! ### Hexadecimal numbers -/

/-- The character of a hexadecimal digit below sixteen. -/
def hexChar (d : Nat) : Char :=
  if d < 10 then Char.ofNat (48 + d) else Char.ofNat (87 + d)

/-- The hexadecimal digits of a number, most significant first. -/
def hex (n : Nat) : List Char :=
  if n < 16 then [hexChar n] else hex (n / 16) ++ [hexChar (n % 16)]
termination_by n
decreasing_by omega

/-- A number below 256 in two hexadecimal digits. -/
def hexPair (n : Nat) : List Char := [hexChar (n / 16), hexChar (n % 16)]

/-- The value of a hexadecimal digit. -/
def hexValue? (c : Char) : Option Nat :=
  if '0' ≤ c ∧ c ≤ '9' then some (c.toNat - 48)
  else if 'a' ≤ c ∧ c ≤ 'f' then some (c.toNat - 87)
  else if 'A' ≤ c ∧ c ≤ 'F' then some (c.toNat - 55)
  else none

/-! ### Quoted text -/

/-- A character as it is written inside quotes. -/
def quotedChar (c : Char) : List Char :=
  if c = Char.ofNat 0 then ['\\', '0']
  else if c = '\t' then ['\\', 't']
  else if c = '\r' then ['\\', 'r']
  else if c = '\n' then ['\\', 'n']
  else if c = '"' then ['\\', '"']
  else if c = '\\' then ['\\', '\\']
  else if isExtender c || !isPrintable c then ['\\', 'u', '\x7b'] ++ hex c.toNat ++ ['\x7d']
  else [c]

/-- A text in quotes. -/
def quoted (s : String) : String :=
  "\"" ++ String.ofList (s.toList.flatMap quotedChar) ++ "\""

end StackScript
