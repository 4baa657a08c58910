/-
# Syntax errors

Why a source cannot be read, and where. A cause has one wording, and an error adds the position
of the token that is to blame.

Key definitions: `Cause`, `Cause.message`, `SyntaxError`.
-/
import StackScript.Text.Bytes
import StackScript.Text.Written
import StackScript.Token

namespace StackScript

/-- Why reading stopped. -/
inductive Cause where
  /-- A stretch of text that is no token. -/
  | invalidToken
  /-- Another kind of token had to come here. -/
  | expected (kind : Kind)
  | expectedDeclaration
  /-- After the opening parenthesis of a parameter list. -/
  | expectedParameter
  /-- After a parameter. -/
  | expectedParameterEnd
  | expectedStatement
  /-- After `else`. -/
  | expectedElse
  /-- After the target of an assignment. -/
  | expectedAssignment
  /-- After an element of a list that ends in `close`. -/
  | expectedSeparator (close : Kind)
  | expectedOperand
  /-- The source ends where an operand had to come. -/
  | unexpectedEnd
  /-- A number with other characters than digits. -/
  | invalidNumber
  /-- A number that is too large. -/
  | numberOverflow
  /-- An escape by code point without two digits for a character of ASCII. -/
  | invalidHexEscape
  /-- An escape that means nothing. -/
  | invalidEscape
  deriving DecidableEq, Repr

/-- The wording of a cause. -/
def Cause.message : Cause → String
  | invalidToken => "invalid token"
  | expected kind => "expected " ++ kind.describe
  | expectedDeclaration => "expected `import`, `global`, or `function`"
  | expectedParameter => "expected identifier or `)`"
  | expectedParameterEnd => "expected `)` or `,`"
  | expectedStatement => "expected `if`, `while`, `return`, `let`, `set`, or `do`"
  | expectedElse => "expected `if` or `\x7b`"
  | expectedAssignment => "expected `[` or `=`"
  | expectedSeparator close => "expected `,` or " ++ close.describe
  | expectedOperand => "expected a literal or identifier"
  | unexpectedEnd => "unexpected end of input"
  | invalidNumber => "invalid number literal"
  | numberOverflow => "number literal would overflow"
  | invalidHexEscape => "invalid `\\x` escape"
  | invalidEscape => "invalid escape sequence"

/-- A cause and the place to look at. -/
structure SyntaxError where
  cause : Cause
  position : Position
  deriving DecidableEq, Repr

/-- An error as it is shown. -/
def SyntaxError.message (e : SyntaxError) : String :=
  "Syntax error at " ++ decimal e.position.line ++ ":" ++ decimal e.position.column ++ ": "
    ++ e.cause.message ++ "."

end StackScript
