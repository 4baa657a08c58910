/-
# Reading a source

The program of a source is read from the list of all its tokens (`parse`). A reader works on the
text itself. It stands at a byte cursor, and can be asked for an expression or for a whole program
from there on, and asked again after an answer, also after one that was an error.

A reader has no tokens but the one at its cursor. It looks at that token without moving (`peek`),
passes it (`advance`), or puts the cursor behind a token that it has looked at (`moveTo`), and all
it does is made of these steps. An error leaves the cursor wherever it is met. The mark for the end
of the source can be passed like a token, and an invalid token never is. The reader keeps the trail
of its cursor.

Each step that passes a token leaves less of the source, so the recursion ends (`Passes.left_lt`).

The functions of a program are reported as they are read, and the program itself at its end.

Key definitions: `parse`, `Reader`, `Reader.peek`, `Reader.advance`, `Reader.readExpression`,
`Reader.readStatement`, `Reader.expression`, `Reader.program`.
-/
import StackScript.Log
import StackScript.Token.Lexer
import StackScript.Tree.Parser

namespace StackScript

/-! ### Whole programs -/

/-- The byte offset of the token to blame, in a source of `size` bytes. -/
def Fault.offset (f : Fault) (size : Nat) : Nat :=
  match f.blamed with
  | [] => size
  | t :: _ => t.start

/-- The token to blame, which is the mark for the end if no token is left. -/
theorem Fault.exists_blamed (f : Fault) (n : Nat) :
    ∃ t ts, f.blamed ++ [.finish n] = t :: ts ∧ t.start = f.offset n := by
  unfold Fault.offset
  cases f.blamed with
  | nil => exact ⟨.finish n, [], rfl, rfl⟩
  | cons t ts => exact ⟨t, ts ++ [.finish n], rfl, rfl⟩

/-- A fault as an error of the source that it was met in. -/
def Fault.toError (f : Fault) (source : List Char) : SyntaxError :=
  ⟨f.cause, position source (f.offset (width source))⟩

/-- The report of a declaration that was read. -/
def Declaration.readEvents : Declaration String → List Event
  | .define f => [.functionParsed f.name f.parameters.length]
  | _ => []

/-- The program of the declarations that were read, unless there is an error after them, and the
report of reading them. -/
def Program.ofRead (ds : List (Declaration String)) (error? : Option SyntaxError) :
    Logged (Except SyntaxError (Program String)) :=
  let events := ds.flatMap Declaration.readEvents
  match error? with
  | none => ⟨events ++ [.programParsed ds.length], .ok ⟨ds⟩⟩
  | some e => ⟨events, .error e⟩

/-- The program that a source holds. -/
def parse (source : String) : Logged (Except SyntaxError (Program String)) :=
  let (ds, fault?) := Parser.declarations (tokens 0 source.toList)
  Program.ofRead ds (fault?.map (·.toError source.toList))

/-! ### Readers -/

/-- A place in a source to read from. -/
structure Reader where
  source : List Char
  cursor : Nat
  /-- Where the cursor was before, the last place first. -/
  trail : List Nat
  deriving DecidableEq, Repr

namespace Reader

variable {α : Type} {n : Nat}

/-- A reader at the start of a source. -/
def start (source : List Char) : Reader := ⟨source, 0, []⟩

/-- All places of the cursor up to now, in order. -/
def places (r : Reader) : List Nat := (r.cursor :: r.trail).reverse

/-- The number of bytes from the cursor to the end of the source. -/
def left (r : Reader) : Nat := width r.source - r.cursor

/-- Puts the cursor at another byte. -/
def moveTo (r : Reader) (offset : Nat) : Reader :=
  { r with cursor := offset, trail := r.cursor :: r.trail }

/-- The token at the cursor. There is none inside a character, and the end of the source is seen
there. -/
def look (r : Reader) : Token := (read? r.source r.cursor).getD (.finish (width r.source))

/-- The token is at the cursor, and the other reader is behind it. -/
def Passes (r : Reader) (t : Token) (after : Reader) : Prop :=
  r.look = t ∧ after = r.moveTo t.stop

/-- Less is left after a token. -/
theorem Passes.left_lt {r after : Reader} {t : Token} (h : r.Passes t after)
    (hk : t.kind ≠ .finish) : after.left < r.left := by
  obtain ⟨rfl, rfl⟩ := h
  unfold look at hk ⊢
  cases hr : read? r.source r.cursor with
  | none =>
    rw [hr] at hk
    exact absurd rfl hk
  | some t =>
    rw [hr, Option.getD_some] at hk
    obtain ⟨hlt, hle⟩ := lt_stop_of_read? hr hk
    simp only [left, moveTo, Option.getD_some]
    omega

/-- What reading from a cursor on comes to: a value and the reader after it, or an error and the
reader where it was met. -/
abbrev SourceReading := Reading left (SyntaxError × Reader)

/-! ### Steps -/

/-- The error that blames a token. -/
def blame (r : Reader) (t : Token) (cause : Cause) : SourceReading n α :=
  .fault (⟨cause, position r.source t.start⟩, r)

/-- Looks at the next token, unless it is invalid. -/
def peek (r : Reader) (next : (t : Token) → r.look = t → SourceReading n α) :
    SourceReading n α :=
  if r.look.kind = .invalid then r.blame r.look .invalidToken else next r.look rfl

/-- Passes the next token, unless it is invalid. -/
def advance (r : Reader)
    (next : (t : Token) → (after : Reader) → r.Passes t after → SourceReading n α) :
    SourceReading n α :=
  r.peek fun t h => next t (r.moveTo t.stop) ⟨h, rfl⟩

/-- Passes a token of a kind. A token of another kind is passed as well. -/
def expect (r : Reader) (kind : Kind) (hkind : kind ≠ .finish) : SourceReading r.left Token :=
  r.advance fun t after h =>
    if hk : t.kind = kind then .found t after (h.left_lt (hk ▸ hkind))
    else after.blame t (.expected kind)

/-- An identifier as a name. -/
def readName (r : Reader) : SourceReading r.left String :=
  (r.expect .identifier (by decide)).map Token.name

/-- The value of the literal `t`, which was just passed, if it has one. -/
def valueOf (r : Reader) (t : Token) (value : Except Cause α) (h : r.left < n) :
    SourceReading n α :=
  match value with
  | .ok a => .found a r h
  | .error cause => r.blame t cause

/-! ### Expressions -/

/-- No operator is the end of the source. -/
theorem ne_finish_of_binaryOp? {kind : Kind} {op : BinaryOp} (h : kind.binaryOp? = some op) :
    kind ≠ .finish := by
  rintro rfl
  cases h

mutual

/-- An operand, and after an operator the expression to its right. -/
def readExpression (r : Reader) : SourceReading r.left (Expr String) :=
  (readOperand r).bind fun left r₁ _ =>
  r₁.peek fun t ht =>
    match hop : t.kind.binaryOp? with
    | none => .found left r₁
    | some op =>
      have hlt := Passes.left_lt ⟨ht, rfl⟩ (ne_finish_of_binaryOp? hop)
      ((readExpression (r₁.moveTo t.stop)).map (.binary op left)).within
termination_by 4 * r.left + 2

/-- An expression in parentheses, an operand after an operator, or a literal, with the calls and
indices that follow. -/
def readOperand (r : Reader) : SourceReading r.left (Expr String) :=
  r.peek fun t ht =>
    match hk : t.kind with
    | .leftParen =>
      have hlt := Passes.left_lt ⟨ht, rfl⟩ (by simp [hk])
      (readExpression (r.moveTo t.stop)).bind fun inner r₁ _ =>
      (r₁.expect .rightParen (by decide)).bind fun _ r₂ _ =>
      (readSuffixes inner r₂).within
    | .minus =>
      have hlt := Passes.left_lt ⟨ht, rfl⟩ (by simp [hk])
      (readOperand (r.moveTo t.stop)).bind fun e r₁ _ =>
      (readSuffixes (.unary .negate e) r₁).within
    | .bang =>
      have hlt := Passes.left_lt ⟨ht, rfl⟩ (by simp [hk])
      (readOperand (r.moveTo t.stop)).bind fun e r₁ _ =>
      (readSuffixes (.unary .not e) r₁).within
    | _ => (readLiteral r).bind fun e r₁ _ => (readSuffixes e r₁).within
termination_by 4 * r.left + 1

/-- The calls and indices after an operand. -/
def readSuffixes (e : Expr String) (r : Reader) : SourceReading (r.left + 1) (Expr String) :=
  r.peek fun t ht =>
    match hk : t.kind with
    | .leftParen =>
      have hlt := Passes.left_lt ⟨ht, rfl⟩ (by simp [hk])
      (readExpressions .rightParen (by decide) (r.moveTo t.stop)).bind fun arguments r₁ _ =>
      (readSuffixes (.call e arguments) r₁).within
    | .leftBracket =>
      have hlt := Passes.left_lt ⟨ht, rfl⟩ (by simp [hk])
      (readExpression (r.moveTo t.stop)).bind fun key r₁ _ =>
      (r₁.expect .rightBracket (by decide)).bind fun _ r₂ _ =>
      (readSuffixes (.index e key) r₂).within
    | _ => .found e r
termination_by 4 * r.left

/-- A literal, a name or a list. -/
def readLiteral (r : Reader) : SourceReading r.left (Expr String) :=
  r.advance fun t after h =>
    match hk : t.kind with
    | .trueWord => .found (.boolean true) after (h.left_lt (by simp [hk]))
    | .falseWord => .found (.boolean false) after (h.left_lt (by simp [hk]))
    | .nullWord => .found .null after (h.left_lt (by simp [hk]))
    | .identifier => .found (.name t.name) after (h.left_lt (by simp [hk]))
    | .string =>
      (after.valueOf t (Literal.string t.text) (h.left_lt (by simp [hk]))).map .string
    | .integer =>
      (after.valueOf t (Literal.integer t.text) (h.left_lt (by simp [hk]))).map .integer
    | .leftBracket =>
      have hlt := h.left_lt (by simp [hk])
      ((readExpressions .rightBracket (by decide) after).map .list).within
    | .finish => after.blame t .unexpectedEnd
    | _ => after.blame t .expectedOperand
termination_by 4 * r.left

/-- Expressions between commas through the token that closes their list. A comma may stand before
that token. -/
def readExpressions (close : Kind) (hclose : close ≠ .finish) (r : Reader) :
    SourceReading r.left (List (Expr String)) :=
  r.peek fun t ht =>
    if hk : t.kind = close then
      .found [] (r.moveTo t.stop) (Passes.left_lt ⟨ht, rfl⟩ (hk ▸ hclose))
    else
      (readExpression r).bind fun e r₁ _ =>
      r₁.peek fun s hs =>
        if hk : s.kind = .comma then
          have hlt := Passes.left_lt ⟨hs, rfl⟩ (by simp [hk])
          ((readExpressions close hclose (r₁.moveTo s.stop)).map (e :: ·)).within
        else if s.kind ≠ close then r₁.blame s (.expectedSeparator close)
        else ((readExpressions close hclose r₁).map (e :: ·)).within
termination_by 4 * r.left + 3

end

/-! ### Statements -/

/-- An expression and the token that ends it. -/
def readExpressionThen (r : Reader) (close : Kind) (hclose : close ≠ .finish) :
    SourceReading r.left (Expr String) :=
  r.readExpression.bind fun e r₁ _ => ((r₁.expect close hclose).map fun _ => e).within

/-- An expression in parentheses. -/
def readCondition (r : Reader) : SourceReading r.left (Expr String) :=
  (r.expect .leftParen (by decide)).bind fun _ r₁ _ =>
  (r₁.readExpressionThen .rightParen (by decide)).within

/-- What follows `return`: without an expression the value is null. -/
def readReturned (r : Reader) : SourceReading r.left (Expr String) :=
  r.peek fun t _ =>
    if t.kind = .semicolon then (r.expect .semicolon (by decide)).map fun _ => .null
    else r.readExpressionThen .semicolon (by decide)

/-- What follows `let`. -/
def readBinding (r : Reader) : SourceReading r.left (Stmt String) :=
  r.readName.bind fun name r₁ _ =>
  (r₁.expect .equal (by decide)).bind fun _ r₂ _ =>
  ((r₂.readExpressionThen .semicolon (by decide)).map (.declare name)).within

/-- The indices of an assignment's target, through the equals sign. -/
def readIndices (r : Reader) : SourceReading r.left (List (Expr String)) :=
  r.advance fun t after h =>
    match hk : t.kind with
    | .leftBracket =>
      have hlt := h.left_lt (by simp [hk])
      (after.readExpressionThen .rightBracket (by decide)).bind fun index r₁ _ =>
      ((readIndices r₁).map (index :: ·)).within
    | .equal => .found [] after (h.left_lt (by simp [hk]))
    | _ => after.blame t .expectedAssignment
termination_by r.left

/-- What follows `set`. -/
def readAssignment (r : Reader) : SourceReading r.left (Stmt String) :=
  r.readName.bind fun target r₁ _ =>
  r₁.readIndices.bind fun indices r₂ _ =>
  ((r₂.readExpressionThen .semicolon (by decide)).map (.assign target indices)).within

mutual

/-- Statements in braces. -/
def readBlock (r : Reader) : SourceReading r.left (List (Stmt String)) :=
  (r.expect .leftBrace (by decide)).bind fun _ r₁ _ => (readStatements r₁).within
termination_by 2 * r.left

/-- Statements through a closing brace. -/
def readStatements (r : Reader) : SourceReading r.left (List (Stmt String)) :=
  r.peek fun t ht =>
    match hk : t.kind with
    | .rightBrace =>
      .found [] (r.moveTo t.stop) (Passes.left_lt ⟨ht, rfl⟩ (by simp [hk]))
    | .finish => r.blame t (.expected .rightBrace)
    | _ => (readStatement r).bind fun s r₁ _ => ((readStatements r₁).map (s :: ·)).within
termination_by 2 * r.left + 1

/-- One statement. -/
def readStatement (r : Reader) : SourceReading r.left (Stmt String) :=
  r.advance fun t after h =>
    match hk : t.kind with
    | .returnWord =>
      have hlt := h.left_lt (by simp [hk])
      (after.readReturned.map .ret).within
    | .doWord =>
      have hlt := h.left_lt (by simp [hk])
      ((after.readExpressionThen .semicolon (by decide)).map .run).within
    | .letWord =>
      have hlt := h.left_lt (by simp [hk])
      after.readBinding.within
    | .whileWord =>
      have hlt := h.left_lt (by simp [hk])
      after.readCondition.bind fun c r₁ _ => ((readBlock r₁).map (.loop c)).within
    | .ifWord =>
      have hlt := h.left_lt (by simp [hk])
      after.readCondition.bind fun c r₁ _ =>
      (readBlock r₁).bind fun body r₂ _ =>
      ((readArms r₂).map fun more => .choose (.arm c body more)).within
    | .setWord =>
      have hlt := h.left_lt (by simp [hk])
      after.readAssignment.within
    | _ => after.blame t .expectedStatement
termination_by 2 * r.left

/-- What follows the first arm of an `if`. -/
def readArms (r : Reader) : SourceReading (r.left + 1) (Arms String) :=
  r.peek fun t ht =>
    if hk : t.kind = .elseWord then
      r.advance fun _ after h =>
        have hlt := h.left_lt (by rw [← h.1, ht, hk]; decide)
        after.peek fun u hu =>
          match hk : u.kind with
          | .ifWord =>
            have hlt' := Passes.left_lt ⟨hu, rfl⟩ (by simp [hk])
            (after.moveTo u.stop).readCondition.bind fun c r₁ _ =>
            (readBlock r₁).bind fun body r₂ _ =>
            ((readArms r₂).map (.arm c body)).within
          | .finish => after.blame u .expectedElse
          | _ => ((readBlock after).map .otherwise).within
    else .found .done r
termination_by 2 * r.left

end

/-! ### Declarations -/

/-- What follows a parameter. -/
def readMoreParameters (r : Reader) : SourceReading r.left (List String) :=
  r.advance fun t after h =>
    match hk : t.kind with
    | .rightParen => .found [] after (h.left_lt (by simp [hk]))
    | .comma =>
      have hlt := h.left_lt (by simp [hk])
      after.readName.bind fun name r₁ _ => ((readMoreParameters r₁).map (name :: ·)).within
    | _ => after.blame t .expectedParameterEnd
termination_by r.left

/-- The parameters after an opening parenthesis. -/
def readParameters (r : Reader) : SourceReading r.left (List String) :=
  r.advance fun t after h =>
    match hk : t.kind with
    | .rightParen => .found [] after (h.left_lt (by simp [hk]))
    | .identifier =>
      have hlt := h.left_lt (by simp [hk])
      (after.readMoreParameters.map (t.name :: ·)).within
    | _ => after.blame t .expectedParameter

/-- What follows `function`. -/
def readFunction (r : Reader) : SourceReading r.left (FunctionDef String) :=
  r.readName.bind fun name r₁ _ =>
  (r₁.expect .leftParen (by decide)).bind fun _ r₂ _ =>
  r₂.readParameters.bind fun parameters r₃ _ =>
  (r₃.readBlock.map (FunctionDef.mk name parameters)).within

/-- What follows `import`. -/
def readImport (r : Reader) : SourceReading r.left (Declaration String) :=
  (r.expect .string (by decide)).bind fun t r₁ h₁ =>
  (r₁.valueOf t (Literal.string t.text) h₁).bind fun path r₂ _ =>
  ((r₂.expect .semicolon (by decide)).map fun _ => .load path).within

/-- What follows `global`. -/
def readGlobal (r : Reader) : SourceReading r.left (Declaration String) :=
  r.readName.bind fun name r₁ _ =>
  ((r₁.expect .semicolon (by decide)).map fun _ => .global name).within

/-- One declaration. -/
def readDeclaration (r : Reader) : SourceReading r.left (Declaration String) :=
  r.advance fun t after h =>
    match hk : t.kind with
    | .importWord =>
      have hlt := h.left_lt (by simp [hk])
      after.readImport.within
    | .globalWord =>
      have hlt := h.left_lt (by simp [hk])
      after.readGlobal.within
    | .functionWord =>
      have hlt := h.left_lt (by simp [hk])
      (after.readFunction.map .define).within
    | _ => after.blame t .expectedDeclaration

/-- The declarations up to the end of the source, which is passed, or to an error. -/
def readDeclarations (r : Reader) :
    List (Declaration String) × Option SyntaxError × Reader :=
  if r.look.kind = .finish then ([], none, r.moveTo r.look.stop)
  else
    match r.readDeclaration with
    | .fault (e, after) => ([], some e, after)
    | .found d after _ =>
      let (ds, error?, last) := readDeclarations after
      (d :: ds, error?, last)
termination_by r.left

/-! ### Requests -/

/-- Reads an expression. -/
def expression (r : Reader) : Except SyntaxError (Expr String) × Reader :=
  match r.readExpression with
  | .found e after _ => (.ok e, after)
  | .fault (e, after) => (.error e, after)

/-- Reads declarations to the end of the source. -/
def program (r : Reader) : Logged (Except SyntaxError (Program String)) × Reader :=
  let (ds, error?, after) := r.readDeclarations
  (Program.ofRead ds error?, after)

end Reader

end StackScript
