/-
# Tokens

The words and marks of the language. A kind with one spelling is described by that spelling in
back quotes, the others in words. A token is a kind, the text it was read from, and the byte
offset at which that text starts.

Key definitions: `Kind`, `Kind.describe`, `Kind.ofWord`, `Token`.
-/
import StackScript.Text.Bytes

namespace StackScript

/-- The kinds of token. -/
inductive Kind where
  /-- The end of the source. -/
  | finish
  /-- A stretch of text that is no token. -/
  | invalid
  | identifier
  | integer
  | string
  | equalEqual
  | notEqual
  | greaterEqual
  | lessEqual
  | less
  | greater
  | ampersand
  | pipe
  | plus
  | minus
  | star
  | slash
  | percent
  | bang
  | equal
  | leftParen
  | rightParen
  | leftBracket
  | rightBracket
  | leftBrace
  | rightBrace
  | comma
  | semicolon
  | globalWord
  | functionWord
  | ifWord
  | elseWord
  | whileWord
  | returnWord
  | doWord
  | letWord
  | setWord
  | trueWord
  | falseWord
  | importWord
  | nullWord
  deriving DecidableEq, Repr

namespace Kind

/-- The reserved words. -/
def reserved : List (String × Kind) :=
  [("global", .globalWord), ("function", .functionWord), ("if", .ifWord), ("else", .elseWord),
    ("while", .whileWord), ("return", .returnWord), ("do", .doWord), ("let", .letWord),
    ("set", .setWord), ("true", .trueWord), ("false", .falseWord), ("import", .importWord),
    ("null", .nullWord)]

/-- The kind of a word: its own if it is reserved, an identifier otherwise. -/
def ofWord (word : List Char) : Kind :=
  (reserved.lookup (String.ofList word)).getD .identifier

/-- The marks of two characters. -/
def ofPair? (c d : Char) : Option Kind :=
  if d = '=' then
    match c with
    | '=' => some .equalEqual
    | '!' => some .notEqual
    | '>' => some .greaterEqual
    | '<' => some .lessEqual
    | _ => none
  else none

/-- The marks of one character. -/
def ofMark? (c : Char) : Option Kind :=
  match c with
  | '<' => some .less
  | '>' => some .greater
  | '&' => some .ampersand
  | '|' => some .pipe
  | '+' => some .plus
  | '-' => some .minus
  | '*' => some .star
  | '/' => some .slash
  | '%' => some .percent
  | '!' => some .bang
  | '=' => some .equal
  | '(' => some .leftParen
  | ')' => some .rightParen
  | '[' => some .leftBracket
  | ']' => some .rightBracket
  | '\x7b' => some .leftBrace
  | '\x7d' => some .rightBrace
  | ',' => some .comma
  | ';' => some .semicolon
  | _ => none

/-- What a kind is called in a message. -/
def describe : Kind → String
  | finish => "end of input"
  | invalid => "invalid token"
  | identifier => "identifier"
  | integer => "number"
  | string => "string"
  | equalEqual => "`==`"
  | notEqual => "`!=`"
  | greaterEqual => "`>=`"
  | lessEqual => "`<=`"
  | less => "`<`"
  | greater => "`>`"
  | ampersand => "`&`"
  | pipe => "`|`"
  | plus => "`+`"
  | minus => "`-`"
  | star => "`*`"
  | slash => "`/`"
  | percent => "`%`"
  | bang => "`!`"
  | equal => "`=`"
  | leftParen => "`(`"
  | rightParen => "`)`"
  | leftBracket => "`[`"
  | rightBracket => "`]`"
  | leftBrace => "`\x7b`"
  | rightBrace => "`\x7d`"
  | comma => "`,`"
  | semicolon => "`;`"
  | globalWord => "`global`"
  | functionWord => "`function`"
  | ifWord => "`if`"
  | elseWord => "`else`"
  | whileWord => "`while`"
  | returnWord => "`return`"
  | doWord => "`do`"
  | letWord => "`let`"
  | setWord => "`set`"
  | trueWord => "`true`"
  | falseWord => "`false`"
  | importWord => "`import`"
  | nullWord => "`null`"

end Kind

/-- A token of a source. -/
structure Token where
  kind : Kind
  /-- The characters that the token is made of. -/
  text : List Char
  /-- The byte offset of its first character. -/
  start : Nat
  deriving DecidableEq, Repr

namespace Token

/-- The byte offset after the last character. -/
def stop (t : Token) : Nat := t.start + width t.text

/-- The text of a token as a name. -/
def name (t : Token) : String := String.ofList t.text

/-- The mark for the end of a source of `n` bytes. -/
def finish (n : Nat) : Token := ⟨.finish, [], n⟩

end Token

end StackScript
