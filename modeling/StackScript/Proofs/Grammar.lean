/-
# The grammar

Which sequences of words and marks are a program, and which program they are, said by rules that
mention no parser. A symbol is a token without its place: its kind and its text. Each kind of
phrase is a relation between a sequence of symbols and a tree, and a sequence is a phrase with
that tree if the rules derive it. The operators are listed here, and the values of literals are
those of the rules for literals.

An expression is an operand, or an operand, an operator and an expression: all operators stand at
one level and nest to the right. A prefix operator takes a whole operand, with all the calls and
indices on it. These chain to the left, from an atom on. The items of a list may have a comma
after the last of them; parameters may not.

Key definitions: `Symbol`, `Grammar.operators`, `Grammar.Expression`, `Grammar.Statement`,
`Grammar.Derives`.
-/
import StackScript.Proofs.Spelling
import StackScript.Token
import StackScript.Tree

namespace StackScript

/-- A token without its place. -/
structure Symbol where
  kind : Kind
  text : List Char
  deriving DecidableEq, Repr

/-- What a token is, wherever it stands. -/
def Token.symbol (t : Token) : Symbol := ⟨t.kind, t.text⟩

/-- The text of a symbol as a name. -/
def Symbol.name (s : Symbol) : String := String.ofList s.text

namespace Grammar

/-- The kinds of symbol that stand between two operands, and the operators that they are. -/
def operators : List (Kind × BinaryOp) :=
  [(.equalEqual, .equal), (.notEqual, .notEqual), (.greater, .greater),
    (.greaterEqual, .greaterEqual), (.less, .less), (.lessEqual, .lessEqual), (.ampersand, .and),
    (.pipe, .or), (.plus, .add), (.minus, .subtract), (.star, .multiply), (.slash, .divide),
    (.percent, .remainder)]

mutual

/-- An operand, or operands with operators between them. -/
inductive Expression : List Symbol → Expr String → Prop
  | operand {v e} : Operand v e → Expression v e
  | binary {v w k a op l r} : Operand v l → (k, op) ∈ operators → Expression w r →
      Expression (v ++ ⟨k, a⟩ :: w) (.binary op l r)

/-- A chain, under any number of prefix operators. -/
inductive Operand : List Symbol → Expr String → Prop
  | negate {v a e} : Operand v e → Operand (⟨.minus, a⟩ :: v) (.unary .negate e)
  | not {v a e} : Operand v e → Operand (⟨.bang, a⟩ :: v) (.unary .not e)
  | chain {v e} : Chain v e → Operand v e

/-- An atom, with any number of calls and indices. -/
inductive Chain : List Symbol → Expr String → Prop
  | atom {v e} : Atom v e → Chain v e
  | call {v w a b e es} : Chain v e → Items w es →
      Chain (v ++ ⟨.leftParen, a⟩ :: w ++ [⟨.rightParen, b⟩]) (.call e es)
  | index {v w a b e key} : Chain v e → Expression w key →
      Chain (v ++ ⟨.leftBracket, a⟩ :: w ++ [⟨.rightBracket, b⟩]) (.index e key)

/-- A literal, a name, a list, or an expression in parentheses. A number is at most 2⁶³ - 1, and
what a string stands for is between its quotes. -/
inductive Atom : List Symbol → Expr String → Prop
  | true {a} : Atom [⟨.trueWord, a⟩] (.boolean true)
  | false {a} : Atom [⟨.falseWord, a⟩] (.boolean false)
  | null {a} : Atom [⟨.nullWord, a⟩] .null
  | name {a} : Atom [⟨.identifier, a⟩] (.name (String.ofList a))
  | integer {a n} {i : Int64} : Literal.Numeral a n → n ≤ 9223372036854775807 → i.toInt = n →
      Atom [⟨.integer, a⟩] (.integer i)
  | string {a s} : Literal.Body a.tail.dropLast s.toList → Atom [⟨.string, a⟩] (.string s)
  | list {w a b es} : Items w es →
      Atom (⟨.leftBracket, a⟩ :: w ++ [⟨.rightBracket, b⟩]) (.list es)
  | parens {w a b e} : Expression w e →
      Atom (⟨.leftParen, a⟩ :: w ++ [⟨.rightParen, b⟩]) e

/-- Expressions between commas, the last with or without one after it. -/
inductive Items : List Symbol → List (Expr String) → Prop
  | nil : Items [] []
  | last {v e} : Expression v e → Items v [e]
  | cons {v w a e es} : Expression v e → Items w es → Items (v ++ ⟨.comma, a⟩ :: w) (e :: es)

end

/-- The indices of an assignment's target. -/
inductive Indices : List Symbol → List (Expr String) → Prop
  | nil : Indices [] []
  | cons {v w a b e es} : Expression v e → Indices w es →
      Indices (⟨.leftBracket, a⟩ :: v ++ ⟨.rightBracket, b⟩ :: w) (e :: es)

mutual

/-- Statements in braces. -/
inductive Block : List Symbol → List (Stmt String) → Prop
  | braces {w a b ss} : Statements w ss →
      Block (⟨.leftBrace, a⟩ :: w ++ [⟨.rightBrace, b⟩]) ss

/-- Statements one after the other. -/
inductive Statements : List Symbol → List (Stmt String) → Prop
  | nil : Statements [] []
  | cons {v w s ss} : Statement v s → Statements w ss → Statements (v ++ w) (s :: ss)

/-- One statement. -/
inductive Statement : List Symbol → Stmt String → Prop
  | ret {v a b e} : Expression v e →
      Statement (⟨.returnWord, a⟩ :: v ++ [⟨.semicolon, b⟩]) (.ret e)
  | retNull {a b} : Statement [⟨.returnWord, a⟩, ⟨.semicolon, b⟩] (.ret .null)
  | run {v a b e} : Expression v e → Statement (⟨.doWord, a⟩ :: v ++ [⟨.semicolon, b⟩]) (.run e)
  | declare {v a b c n e} : Expression v e →
      Statement (⟨.letWord, a⟩ :: ⟨.identifier, n⟩ :: ⟨.equal, b⟩ :: v ++ [⟨.semicolon, c⟩])
        (.declare (String.ofList n) e)
  | assign {v w a b c n es e} : Indices v es → Expression w e →
      Statement (⟨.setWord, a⟩ :: ⟨.identifier, n⟩ :: v ++ ⟨.equal, b⟩ :: w ++ [⟨.semicolon, c⟩])
        (.assign (String.ofList n) es e)
  | loop {v w a b c e body} : Expression v e → Block w body →
      Statement (⟨.whileWord, a⟩ :: ⟨.leftParen, b⟩ :: v ++ ⟨.rightParen, c⟩ :: w) (.loop e body)
  | choose {v w x a b c e body more} : Expression v e → Block w body → Otherwise x more →
      Statement (⟨.ifWord, a⟩ :: ⟨.leftParen, b⟩ :: v ++ ⟨.rightParen, c⟩ :: w ++ x)
        (.choose (.arm e body more))

/-- What follows an arm of an `if`. -/
inductive Otherwise : List Symbol → Arms String → Prop
  | done : Otherwise [] .done
  | otherwise {w a body} : Block w body → Otherwise (⟨.elseWord, a⟩ :: w) (.otherwise body)
  | arm {v w x a b c d e body more} : Expression v e → Block w body → Otherwise x more →
      Otherwise
        (⟨.elseWord, a⟩ :: ⟨.ifWord, b⟩ :: ⟨.leftParen, c⟩ :: v ++ ⟨.rightParen, d⟩ :: w ++ x)
        (.arm e body more)

end

/-- Parameters after the first. -/
inductive MoreParameters : List Symbol → List String → Prop
  | nil : MoreParameters [] []
  | cons {w a n ns} : MoreParameters w ns →
      MoreParameters (⟨.comma, a⟩ :: ⟨.identifier, n⟩ :: w) (String.ofList n :: ns)

/-- Names between commas. -/
inductive Parameters : List Symbol → List String → Prop
  | nil : Parameters [] []
  | cons {w n ns} : MoreParameters w ns →
      Parameters (⟨.identifier, n⟩ :: w) (String.ofList n :: ns)

/-- One declaration. -/
inductive Decl : List Symbol → Declaration String → Prop
  | load {a b c s} : Literal.Body b.tail.dropLast s.toList →
      Decl [⟨.importWord, a⟩, ⟨.string, b⟩, ⟨.semicolon, c⟩] (.load s)
  | global {a b n} :
      Decl [⟨.globalWord, a⟩, ⟨.identifier, n⟩, ⟨.semicolon, b⟩] (.global (String.ofList n))
  | define {v w a b c n ps body} : Parameters v ps → Block w body →
      Decl (⟨.functionWord, a⟩ :: ⟨.identifier, n⟩ :: ⟨.leftParen, b⟩ :: v ++ ⟨.rightParen, c⟩ :: w)
        (.define ⟨String.ofList n, ps, body⟩)

/-- Declarations one after the other. -/
inductive Decls : List Symbol → List (Declaration String) → Prop
  | nil : Decls [] []
  | cons {v w d ds} : Decl v d → Decls w ds → Decls (v ++ w) (d :: ds)

/-- The symbols are a program, and it is this one. -/
def Derives (w : List Symbol) (p : Program String) : Prop := Decls w p.declarations

/-! ### How phrases begin

One symbol of look-ahead is enough to read a program because what an expression or a statement
begins with is neither what ends a list nor what goes on with the phrase before. -/

/-- The kinds of symbol that an expression can begin with. -/
def operandKinds : List Kind :=
  [.leftParen, .leftBracket, .minus, .bang, .trueWord, .falseWord, .nullWord, .identifier,
    .integer, .string]

/-- The kinds of symbol that a statement can begin with. -/
def statementKinds : List Kind :=
  [.returnWord, .doWord, .letWord, .setWord, .whileWord, .ifWord]

/-- The sequence begins with a symbol of one of the kinds. -/
def Begins (kinds : List Kind) (w : List Symbol) : Prop := ∃ s v, w = s :: v ∧ s.kind ∈ kinds

theorem Begins.append {kinds : List Kind} {v : List Symbol} (h : Begins kinds v)
    (w : List Symbol) : Begins kinds (v ++ w) := by
  obtain ⟨s, v, rfl, hs⟩ := h
  exact ⟨s, v ++ w, rfl, hs⟩

theorem Atom.begins {w : List Symbol} {e : Expr String} (h : Atom w e) :
    Begins operandKinds w := by
  cases h <;> exact ⟨_, _, rfl, by simp [operandKinds]⟩

theorem Chain.begins : ∀ {w : List Symbol} {e : Expr String}, Chain w e → Begins operandKinds w
  | _, _, .atom h => h.begins
  | _, _, .call h _ => (h.begins.append _).append _
  | _, _, .index h _ => (h.begins.append _).append _

theorem Operand.begins {w : List Symbol} {e : Expr String} (h : Operand w e) :
    Begins operandKinds w := by
  cases h with
  | negate h => exact ⟨_, _, rfl, by simp [operandKinds]⟩
  | not h => exact ⟨_, _, rfl, by simp [operandKinds]⟩
  | chain h => exact h.begins

theorem Expression.begins {w : List Symbol} {e : Expr String} (h : Expression w e) :
    Begins operandKinds w := by
  cases h with
  | operand h => exact h.begins
  | binary h _ _ => exact h.begins.append _

theorem Statement.begins {w : List Symbol} {s : Stmt String} (h : Statement w s) :
    Begins statementKinds w := by
  cases h <;> exact ⟨_, _, rfl, by simp [statementKinds]⟩

theorem Block.begins {w : List Symbol} {ss : List (Stmt String)} (h : Block w ss) :
    Begins [.leftBrace] w := by
  cases h
  exact ⟨_, _, rfl, by simp⟩

theorem Decl.begins {w : List Symbol} {d : Declaration String} (h : Decl w d) :
    Begins [.importWord, .globalWord, .functionWord] w := by
  cases h <;> exact ⟨_, _, rfl, by simp⟩

/-! ### Invalid symbols

No rule mentions them, so no phrase has one. -/

/-- No symbol is invalid. -/
def Valid (w : List Symbol) : Prop := ∀ s ∈ w, s.kind ≠ .invalid

@[simp] theorem valid_nil : Valid [] := by simp [Valid]

@[simp] theorem valid_cons {s : Symbol} {w : List Symbol} :
    Valid (s :: w) ↔ s.kind ≠ .invalid ∧ Valid w := by
  simp [Valid]

@[simp] theorem valid_append {v w : List Symbol} : Valid (v ++ w) ↔ Valid v ∧ Valid w := by
  simp [Valid, or_imp, forall_and]

theorem ne_invalid_of_operator {k : Kind} {op : BinaryOp} (h : (k, op) ∈ operators) :
    k ≠ .invalid := by
  have hall : ∀ p ∈ operators, p.1 ≠ .invalid := by decide
  exact hall _ h

mutual

theorem Expression.valid : ∀ {w : List Symbol} {e : Expr String}, Expression w e → Valid w
  | _, _, .operand h => h.valid
  | _, _, .binary h hop h' => by
    simp [h.valid, ne_invalid_of_operator hop, h'.valid]

theorem Operand.valid : ∀ {w : List Symbol} {e : Expr String}, Operand w e → Valid w
  | _, _, .negate h => by simp [h.valid]
  | _, _, .not h => by simp [h.valid]
  | _, _, .chain h => h.valid

theorem Chain.valid : ∀ {w : List Symbol} {e : Expr String}, Chain w e → Valid w
  | _, _, .atom h => h.valid
  | _, _, .call h h' => by simp [h.valid, h'.valid]
  | _, _, .index h h' => by simp [h.valid, h'.valid]

theorem Atom.valid : ∀ {w : List Symbol} {e : Expr String}, Atom w e → Valid w
  | _, _, .true => by simp
  | _, _, .false => by simp
  | _, _, .null => by simp
  | _, _, .name => by simp
  | _, _, .integer _ _ _ => by simp
  | _, _, .string _ => by simp
  | _, _, .list h => by simp [h.valid]
  | _, _, .parens h => by simp [h.valid]

theorem Items.valid : ∀ {w : List Symbol} {es : List (Expr String)}, Items w es → Valid w
  | _, _, .nil => by simp
  | _, _, .last h => h.valid
  | _, _, .cons h h' => by simp [h.valid, h'.valid]

end

theorem Indices.valid : ∀ {w : List Symbol} {es : List (Expr String)}, Indices w es → Valid w
  | _, _, .nil => by simp
  | _, _, .cons h h' => by simp [h.valid, h'.valid]

mutual

theorem Block.valid : ∀ {w : List Symbol} {ss : List (Stmt String)}, Block w ss → Valid w
  | _, _, .braces h => by simp [h.valid]

theorem Statements.valid : ∀ {w : List Symbol} {ss : List (Stmt String)},
    Statements w ss → Valid w
  | _, _, .nil => by simp
  | _, _, .cons h h' => by simp [h.valid, h'.valid]

theorem Statement.valid : ∀ {w : List Symbol} {s : Stmt String}, Statement w s → Valid w
  | _, _, .ret h => by simp [h.valid]
  | _, _, .retNull => by simp
  | _, _, .run h => by simp [h.valid]
  | _, _, .declare h => by simp [h.valid]
  | _, _, .assign h h' => by simp [h.valid, h'.valid]
  | _, _, .loop h h' => by simp [h.valid, h'.valid]
  | _, _, .choose h h' h'' => by simp [h.valid, h'.valid, h''.valid]

theorem Otherwise.valid : ∀ {w : List Symbol} {more : Arms String}, Otherwise w more → Valid w
  | _, _, .done => by simp
  | _, _, .otherwise h => by simp [h.valid]
  | _, _, .arm h h' h'' => by simp [h.valid, h'.valid, h''.valid]

end

theorem MoreParameters.valid : ∀ {w : List Symbol} {ns : List String},
    MoreParameters w ns → Valid w
  | _, _, .nil => by simp
  | _, _, .cons h => by simp [h.valid]

theorem Parameters.valid {w : List Symbol} {ns : List String} (h : Parameters w ns) :
    Valid w := by
  cases h with
  | nil => simp
  | cons h => simp [h.valid]

theorem Decl.valid {w : List Symbol} {d : Declaration String} (h : Decl w d) : Valid w := by
  cases h with
  | load _ => simp
  | global => simp
  | define hp hb => simp [hp.valid, hb.valid]

theorem Decls.valid : ∀ {w : List Symbol} {ds : List (Declaration String)}, Decls w ds → Valid w
  | _, _, .nil => by simp
  | _, _, .cons h h' => by simp [h.valid, h'.valid]

end Grammar

end StackScript
