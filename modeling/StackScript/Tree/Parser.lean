/-
# From tokens to trees

The grammar, read from left to right with one token of look-ahead. All binary operators have
one level and associate to the right; an operator before an operand takes all the calls and
indices after it; calls and indices chain to the left. A list in parentheses or brackets may
have a comma before its end, a parameter list may not.

Each reader calls itself only on what is left after at least one token, or passes the same
tokens down to a more special one, so the recursion ends.

A fault says where and why the reading stopped. It keeps the tokens from the one to blame on, of
which there are none at the end of the source, and whether reading went past that token. An invalid
token is never passed.

Key definitions: `Fault`, `TokenReading`, `expect`, `expression`, `block`, `declaration`,
`declarations`.
-/
import StackScript.Literal
import StackScript.Reading
import StackScript.Tree

namespace StackScript

/-! ### Faults -/

/-- Where and why reading stopped. -/
structure Fault where
  cause : Cause
  /-- The tokens from the one to blame on. -/
  blamed : List Token
  /-- Whether the token to blame was passed. -/
  passed : Bool
  deriving DecidableEq, Repr

/-- The fault at a token that has no place where it stands. An invalid one has no place
anywhere. -/
def Fault.unexpected (cause : Cause) (ts : List Token) (passed : Bool) : Fault :=
  match ts with
  | [] => ⟨cause, [], passed⟩
  | t :: _ => if t.kind = .invalid then ⟨.invalidToken, ts, false⟩ else ⟨cause, ts, passed⟩

/-- The outcome of reading tokens. -/
abbrev TokenReading := Reading (List.length : List Token → Nat) Fault

/-! ### Single tokens -/

/-- The operator that a token between two operands stands for. -/
def Kind.binaryOp? : Kind → Option BinaryOp
  | equalEqual => some .equal
  | notEqual => some .notEqual
  | greaterEqual => some .greaterEqual
  | lessEqual => some .lessEqual
  | greater => some .greater
  | less => some .less
  | ampersand => some .and
  | pipe => some .or
  | plus => some .add
  | minus => some .subtract
  | star => some .multiply
  | slash => some .divide
  | percent => some .remainder
  | _ => none

/-- Reads one token of a kind. A token of another kind is passed. -/
def expect (kind : Kind) : (ts : List Token) → TokenReading ts.length Token
  | [] => .fault ⟨.expected kind, [], true⟩
  | t :: rest =>
    if t.kind = kind then .found t rest (Nat.lt_succ_self _)
    else .fault (.unexpected (.expected kind) (t :: rest) true)

/-- The value of a literal that was read from the token `t`, if it has one. -/
def literal {α : Type} (value : Except Cause α) (t : Token) (rest : List Token) :
    TokenReading (rest.length + 1) α :=
  match value with
  | .ok a => .found a rest (Nat.lt_succ_self _)
  | .error cause => .fault ⟨cause, t :: rest, true⟩

namespace Parser

/-! ### Expressions -/

mutual

/-- An operand, and after an operator the expression to its right. -/
def expression (ts : List Token) : TokenReading ts.length (Expr String) :=
  (operand ts).bind fun left rest _ =>
    match rest with
    | [] => .found left []
    | t :: rest =>
      match t.kind.binaryOp? with
      | some op => ((expression rest).map (.binary op left)).within
      | none =>
        if t.kind = .invalid then .fault ⟨.invalidToken, t :: rest, false⟩
        else .found left (t :: rest)
termination_by 3 * ts.length + 1
decreasing_by all_goals (try simp only [List.length_cons] at *); omega

/-- A literal, a name, a list, an expression in parentheses or an operand after an operator,
with the calls and indices that follow. -/
def operand (ts : List Token) : TokenReading ts.length (Expr String) :=
  match ts with
  | [] => .fault ⟨.unexpectedEnd, [], true⟩
  | t :: rest =>
    match t.kind with
    | .leftParen =>
      (expression rest).bind fun e rest _ =>
      (expect .rightParen rest).bind fun _ rest _ =>
      (suffixes e rest).within
    | .minus =>
      (operand rest).bind fun e rest _ => (suffixes (.unary .negate e) rest).within
    | .bang =>
      (operand rest).bind fun e rest _ => (suffixes (.unary .not e) rest).within
    | .leftBracket =>
      (expressions .rightBracket rest).bind fun es rest _ => (suffixes (.list es) rest).within
    | .trueWord => (suffixes (.boolean true) rest).within
    | .falseWord => (suffixes (.boolean false) rest).within
    | .nullWord => (suffixes .null rest).within
    | .identifier => (suffixes (.name t.name) rest).within
    | .string =>
      (literal (Literal.string t.text) t rest).bind fun s rest' _ =>
        (suffixes (.string s) rest').within
    | .integer =>
      (literal (Literal.integer t.text) t rest).bind fun i rest' _ =>
        (suffixes (.integer i) rest').within
    | _ => .fault (.unexpected .expectedOperand (t :: rest) true)
termination_by 3 * ts.length
decreasing_by all_goals (try simp only [List.length_cons] at *); omega

/-- The calls and indices after an operand. -/
def suffixes (e : Expr String) (ts : List Token) : TokenReading (ts.length + 1) (Expr String) :=
  match ts with
  | [] => .found e []
  | t :: rest =>
    match t.kind with
    | .leftParen =>
      (expressions .rightParen rest).bind fun es rest _ => (suffixes (.call e es) rest).within
    | .leftBracket =>
      (expression rest).bind fun key rest _ =>
      (expect .rightBracket rest).bind fun _ rest _ =>
      (suffixes (.index e key) rest).within
    | .invalid => .fault ⟨.invalidToken, t :: rest, false⟩
    | _ => .found e (t :: rest)
termination_by 3 * ts.length
decreasing_by all_goals (try simp only [List.length_cons] at *); omega

/-- Expressions between commas through the token that closes their list. -/
def expressions (close : Kind) (ts : List Token) : TokenReading ts.length (List (Expr String)) :=
  match ts with
  | [] => .fault ⟨.unexpectedEnd, [], true⟩
  | t :: rest =>
    if t.kind = close then .found [] rest
    else
      (expression (t :: rest)).bind fun e rest _ =>
        match rest with
        | [] => .fault ⟨.expectedSeparator close, [], false⟩
        | s :: rest =>
          if s.kind = .comma then ((expressions close rest).map (e :: ·)).within
          else if s.kind = close then .found [e] rest
          else .fault (.unexpected (.expectedSeparator close) (s :: rest) false)
termination_by 3 * ts.length + 2
decreasing_by all_goals (try simp only [List.length_cons] at *); omega

end

@[simp] theorem operand_nil : operand [] = .fault ⟨.unexpectedEnd, [], true⟩ := by rw [operand]

@[simp] theorem expressions_nil (close : Kind) :
    expressions close [] = .fault ⟨.unexpectedEnd, [], true⟩ := by
  rw [expressions]

/-! ### Statements -/

/-- An identifier as a name. -/
def identifier (ts : List Token) : TokenReading ts.length String :=
  (expect .identifier ts).map Token.name

/-- An expression and the token that ends it. -/
def expressionThen (close : Kind) (ts : List Token) : TokenReading ts.length (Expr String) :=
  (expression ts).bind fun e rest _ => ((expect close rest).map fun _ => e).within

/-- An expression in parentheses. -/
def condition (ts : List Token) : TokenReading ts.length (Expr String) :=
  (expect .leftParen ts).bind fun _ rest _ => (expressionThen .rightParen rest).within

/-- What follows `return`: without an expression the value is null. -/
def returned (ts : List Token) : TokenReading ts.length (Expr String) :=
  match ts with
  | [] => .fault ⟨.unexpectedEnd, [], true⟩
  | t :: rest =>
    if t.kind = .semicolon then .found .null rest else expressionThen .semicolon (t :: rest)

/-- The indices of an assignment's target, through the equals sign. -/
def indices (ts : List Token) : TokenReading ts.length (List (Expr String)) :=
  match ts with
  | [] => .fault ⟨.expectedAssignment, [], true⟩
  | t :: rest =>
    match t.kind with
    | .equal => .found [] rest
    | .leftBracket =>
      (expressionThen .rightBracket rest).bind fun e rest _ =>
        ((indices rest).map (e :: ·)).within
    | _ => .fault (.unexpected .expectedAssignment (t :: rest) true)
termination_by ts.length
decreasing_by all_goals (try simp only [List.length_cons] at *); omega

/-- What follows `set`. -/
def assignment (ts : List Token) : TokenReading ts.length (Stmt String) :=
  (identifier ts).bind fun target rest _ =>
  (indices rest).bind fun is rest _ =>
  ((expressionThen .semicolon rest).map (.assign target is)).within

/-- What follows `let`. -/
def binding (ts : List Token) : TokenReading ts.length (Stmt String) :=
  (identifier ts).bind fun name rest _ =>
  (expect .equal rest).bind fun _ rest _ =>
  ((expressionThen .semicolon rest).map (.declare name)).within

mutual

/-- Statements in braces. -/
def block (ts : List Token) : TokenReading ts.length (List (Stmt String)) :=
  (expect .leftBrace ts).bind fun _ rest _ => (statements rest).within
termination_by 2 * ts.length
decreasing_by omega

/-- Statements through a closing brace. -/
def statements (ts : List Token) : TokenReading ts.length (List (Stmt String)) :=
  match ts with
  | [] => .fault ⟨.expected .rightBrace, [], false⟩
  | t :: rest =>
    if t.kind = .rightBrace then .found [] rest
    else
      (statement (t :: rest)).bind fun s rest _ => ((statements rest).map (s :: ·)).within
termination_by 2 * ts.length + 1
decreasing_by all_goals (try simp only [List.length_cons] at *); omega

/-- One statement. -/
def statement (ts : List Token) : TokenReading ts.length (Stmt String) :=
  match ts with
  | [] => .fault ⟨.expectedStatement, [], true⟩
  | t :: rest =>
    match t.kind with
    | .returnWord => ((returned rest).map .ret).within
    | .doWord => ((expressionThen .semicolon rest).map .run).within
    | .letWord => (binding rest).within
    | .setWord => (assignment rest).within
    | .whileWord =>
      (condition rest).bind fun c rest _ => ((block rest).map (.loop c)).within
    | .ifWord =>
      (condition rest).bind fun c rest _ =>
      (block rest).bind fun body rest _ =>
      ((arms rest).map fun more => .choose (.arm c body more)).within
    | _ => .fault (.unexpected .expectedStatement (t :: rest) true)
termination_by 2 * ts.length
decreasing_by all_goals (try simp only [List.length_cons] at *); omega

/-- What follows the first arm of an `if`. -/
def arms (ts : List Token) : TokenReading (ts.length + 1) (Arms String) :=
  match ts with
  | [] => .found .done []
  | t :: rest =>
    match t.kind with
    | .elseWord =>
      match rest with
      | [] => .fault ⟨.expectedElse, [], false⟩
      | u :: rest =>
        if u.kind = .ifWord then
          (condition rest).bind fun c rest _ =>
          (block rest).bind fun body rest _ =>
          ((arms rest).map (.arm c body)).within
        else ((block (u :: rest)).map .otherwise).within
    | .invalid => .fault ⟨.invalidToken, t :: rest, false⟩
    | _ => .found .done (t :: rest)
termination_by 2 * ts.length
decreasing_by all_goals (try simp only [List.length_cons] at *); omega

end

/-! ### Declarations -/

/-- What follows a parameter. -/
def moreParameters (ts : List Token) : TokenReading ts.length (List String) :=
  match ts with
  | [] => .fault ⟨.expectedParameterEnd, [], true⟩
  | t :: rest =>
    match t.kind with
    | .rightParen => .found [] rest
    | .comma =>
      (identifier rest).bind fun name rest _ => ((moreParameters rest).map (name :: ·)).within
    | _ => .fault (.unexpected .expectedParameterEnd (t :: rest) true)
termination_by ts.length
decreasing_by all_goals (try simp only [List.length_cons] at *); omega

/-- The parameters after an opening parenthesis. -/
def parameters (ts : List Token) : TokenReading ts.length (List String) :=
  match ts with
  | [] => .fault ⟨.expectedParameter, [], true⟩
  | t :: rest =>
    match t.kind with
    | .rightParen => .found [] rest
    | .identifier => ((moreParameters rest).map (t.name :: ·)).within
    | _ => .fault (.unexpected .expectedParameter (t :: rest) true)

/-- What follows `function`. -/
def function (ts : List Token) : TokenReading ts.length (FunctionDef String) :=
  (identifier ts).bind fun name rest _ =>
  (expect .leftParen rest).bind fun _ rest _ =>
  (parameters rest).bind fun ps rest _ =>
  ((block rest).map (FunctionDef.mk name ps)).within

/-- What follows `import`. -/
def load (ts : List Token) : TokenReading ts.length (Declaration String) :=
  (expect .string ts).bind fun t rest _ =>
  (literal (Literal.string t.text) t rest).bind fun path rest _ =>
  ((expect .semicolon rest).map fun _ => .load path).within

/-- What follows `global`. -/
def global (ts : List Token) : TokenReading ts.length (Declaration String) :=
  (identifier ts).bind fun name rest _ =>
  ((expect .semicolon rest).map fun _ => .global name).within

/-- One declaration. -/
def declaration (ts : List Token) : TokenReading ts.length (Declaration String) :=
  match ts with
  | [] => .fault ⟨.expectedDeclaration, [], true⟩
  | t :: rest =>
    match t.kind with
    | .importWord => (load rest).within
    | .globalWord => (global rest).within
    | .functionWord => ((function rest).map .define).within
    | _ => .fault (.unexpected .expectedDeclaration (t :: rest) true)

/-- The declarations up to the end of the source or to a fault. -/
def declarations (ts : List Token) : List (Declaration String) × Option Fault :=
  match ts with
  | [] => ([], none)
  | t :: rest =>
    match declaration (t :: rest) with
    | .fault f => ([], some f)
    | .found d rest _ =>
      let (ds, f) := declarations rest
      (d :: ds, f)
termination_by ts.length
decreasing_by all_goals (try simp only [List.length_cons] at *); omega

end Parser

end StackScript
