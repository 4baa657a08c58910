/-
# Printed trees are read back

The text of a well-formed tree is cut into symbols from which the grammar derives that tree and no
other, so printing and parsing give the tree back. Every phrase is printed so that the symbols of
its text do not depend on what is printed after it, as long as that does not go on with a word:
the text `Reads` as these symbols. The proof goes over the tree and names them phrase by phrase.

Key definition: `Reads`.
Key theorems: `Expr.reads_print`, `Stmt.reads_print`, `Program.derives_print`,
`parse_print_iff_wellFormed`.
-/
import StackScript.Proofs.Literals
import StackScript.Proofs.ParserExact
import StackScript.Proofs.WellFormed
import StackScript.Tree.Printer

namespace StackScript

open Grammar
open Outline (commas indent)

/-- Before anything that does not go on with a word, the text is cut into these symbols. -/
def Reads (text : String) (w : List Symbol) : Prop :=
  ∀ rest, EndsWord rest → symbols (text.toList ++ rest) = w ++ symbols rest

/-- A mark or a blank ends the word before it. -/
theorem endsWord_of_mem {c : Char} (h : c ∈ ' ' :: '\n' :: plainMarks) (cs : List Char) :
    EndsWord (c :: cs) := by
  have hw : (' ' :: '\n' :: plainMarks).all (!isWordChar ·) := by decide
  exact endsWord_cons.mpr (by simpa using List.all_eq_true.mp hw c h)

theorem endsWord_nil : EndsWord [] := by simp [EndsWord]

/-- A reserved word is one symbol. -/
theorem symbols_reserved {word : String} {k : Kind} (h : (word, k) ∈ Kind.reserved)
    {rest : List Char} (hr : EndsWord rest) :
    symbols (word.toList ++ rest) = ⟨k, word.toList⟩ :: symbols rest := by
  have hw : ∀ p ∈ Kind.reserved, Kind.ofWord p.1.toList = p.2 ∧
      p.1.toList.head?.any isLetter ∧ p.1.toList.tail.all isWordChar := by decide
  obtain ⟨hk, hl, ht⟩ := hw _ h
  cases hs : word.toList with
  | nil => simp [hs] at hl
  | cons c cs =>
    rw [hs] at hk hl ht
    rw [List.cons_append, symbols_word (by simpa using hl) (by simpa using ht) hr, hk]

/-- So are a reserved word and the space after it. -/
theorem symbols_keyword {word : String} {k : Kind} (h : (word, k) ∈ Kind.reserved)
    (rest : List Char) :
    symbols (word.toList ++ ' ' :: rest) = ⟨k, word.toList⟩ :: symbols rest := by
  rw [symbols_reserved h (endsWord_of_mem (by decide) rest), symbols_blank (by decide)]

theorem symbols_indent (depth : Nat) (rest : List Char) :
    symbols ((indent depth).toList ++ rest) = symbols rest := by
  rw [indent, String.toList_ofList]
  induction 4 * depth with
  | zero => simp
  | succ n ih => rw [List.replicate_succ, List.cons_append, symbols_blank (by decide), ih]

/-- An operator between two spaces is one symbol. -/
theorem symbols_operator (op : BinaryOp) : ∃ s : Symbol, (s.kind, op) ∈ operators ∧
    ∀ rest, symbols (op.spelling.toList ++ ' ' :: rest) = s :: symbols rest := by
  have hb : ∀ rest, symbols (' ' :: rest) = symbols rest := fun rest =>
    symbols_blank (by decide) rest
  have hone : ∀ (c : Char) (k : Kind), Kind.ofMark? c = some k → Kind.ofPair? c ' ' = none →
      ∀ rest, symbols ([c] ++ ' ' :: rest) = ⟨k, [c]⟩ :: symbols rest := by
    intro c k hk hp rest
    rw [List.singleton_append, symbols_mark hk (by simpa using hp) (by simp), hb]
  have htwo : ∀ (c d : Char) (k : Kind), Kind.ofPair? c d = some k →
      ∀ rest, symbols ([c, d] ++ ' ' :: rest) = ⟨k, [c, d]⟩ :: symbols rest := by
    intro c d k hk rest
    rw [List.cons_append, List.singleton_append, symbols_pair hk, hb]
  cases op with
  | equal => exact ⟨_, by decide, htwo '=' '=' .equalEqual rfl⟩
  | notEqual => exact ⟨_, by decide, htwo '!' '=' .notEqual rfl⟩
  | greater => exact ⟨_, by decide, hone '>' .greater rfl rfl⟩
  | greaterEqual => exact ⟨_, by decide, htwo '>' '=' .greaterEqual rfl⟩
  | less => exact ⟨_, by decide, hone '<' .less rfl rfl⟩
  | lessEqual => exact ⟨_, by decide, htwo '<' '=' .lessEqual rfl⟩
  | and => exact ⟨_, by decide, hone '&' .ampersand rfl rfl⟩
  | or => exact ⟨_, by decide, hone '|' .pipe rfl rfl⟩
  | add => exact ⟨_, by decide, hone '+' .plus rfl rfl⟩
  | subtract => exact ⟨_, by decide, hone '-' .minus rfl rfl⟩
  | multiply => exact ⟨_, by decide, hone '*' .star rfl rfl⟩
  | divide => exact ⟨_, by decide, hone '/' .slash rfl rfl⟩
  | remainder => exact ⟨_, by decide, hone '%' .percent rfl rfl⟩

/-! ### Expressions -/

/-- No expression is printed with an `=` in front, which would go on with a `!` before it. -/
theorem Expr.print_head : ∀ e : Expr String, e.WellFormed →
    ∃ c, e.print.toList.head? = some c ∧ c ≠ '='
  | .null, _ => ⟨'n', rfl, by decide⟩
  | .boolean true, _ => ⟨'t', rfl, by decide⟩
  | .boolean false, _ => ⟨'f', rfl, by decide⟩
  | .integer value, h => by
    obtain ⟨n, -, hs, -⟩ := toList_signed h
    rw [Expr.print, hs]
    cases hd : digits n with
    | nil => exact absurd hd (digits_ne_nil n)
    | cons c cs =>
      have hc := isDigit_of_mem_digits n c (by simp [hd])
      exact ⟨c, rfl, by rintro rfl; revert hc; decide⟩
  | .string value, _ => ⟨'"', by rw [Expr.print, Literal.toList_encode]; rfl, by decide⟩
  | .list elements, _ => ⟨'[', by simp [Expr.print], by decide⟩
  | .name n, h => by
    obtain ⟨⟨c, cs, hs, hc, -⟩, -⟩ := h
    refine ⟨c, ?_, by rintro rfl; revert hc; decide⟩
    rw [Expr.print]
    exact congrArg List.head? hs
  | .binary op left right, _ => ⟨'(', by simp [Expr.print], by decide⟩
  | .unary op operand, _ => ⟨'(', by simp [Expr.print], by decide⟩
  | .index collection key, h => by
    obtain ⟨c, hs, hc⟩ := collection.print_head h.1
    exact ⟨c, by simp [Expr.print, hs], hc⟩
  | .call callee arguments, h => by
    obtain ⟨c, hs, hc⟩ := callee.print_head h.1
    exact ⟨c, by simp [Expr.print, hs], hc⟩

/-- An operator before its operand is one symbol, and the two are an operand. -/
theorem symbols_prefixed (op : UnaryOp) {e : Expr String} (h : e.WellFormed) :
    ∃ s : Symbol, (∀ w, Operand w e → Operand (s :: w) (.unary op e)) ∧
      ∀ rest, symbols (op.spelling.toList ++ (e.print.toList ++ rest)) =
        s :: symbols (e.print.toList ++ rest) := by
  cases op with
  | negate =>
    exact ⟨⟨.minus, ['-']⟩, fun _ he => .negate he, fun rest => symbols_plain (by decide) _⟩
  | not =>
    refine ⟨⟨.bang, ['!']⟩, fun _ he => .not he, fun rest => ?_⟩
    obtain ⟨c, hs, hc⟩ := e.print_head h
    refine symbols_mark rfl (fun d hd => ?_) (fun h => absurd h (by decide))
    change d ∈ (e.print.toList ++ rest).head? at hd
    simp only [List.head?_append, hs, Option.some_or, Option.mem_some_iff] at hd
    rw [← hd]
    unfold Kind.ofPair?
    simp [hc]

mutual

/-- A printed expression is a chain, so it can stand anywhere that an expression can. -/
theorem Expr.reads_print : ∀ e : Expr String, e.WellFormed → ∃ w, Chain w e ∧ Reads e.print w
  | .null, _ => ⟨_, .atom .null, fun _ => symbols_reserved (by decide)⟩
  | .boolean true, _ => ⟨_, .atom .true, fun _ => symbols_reserved (by decide)⟩
  | .boolean false, _ => ⟨_, .atom .false, fun _ => symbols_reserved (by decide)⟩
  | .integer value, h => by
    obtain ⟨n, hle, hs, hv⟩ := toList_signed h
    refine ⟨_, .atom (.integer (numeral_digits n) hle hv), fun rest hr => ?_⟩
    rw [Expr.print, hs, symbols_digits n hr, List.singleton_append]
  | .string value, _ => by
    refine ⟨_, .atom (.string (Literal.body_encode value)), fun rest _ => ?_⟩
    exact symbols_encode value rest
  | .list elements, h => by
    obtain ⟨w, hw, hr⟩ := Expr.reads_printAll elements h
    refine ⟨_, .atom (.list (a := ['[']) (b := [']']) hw), fun rest _ => ?_⟩
    have ht : (Expr.print (.list elements)).toList ++ rest =
        '[' :: ((commas (Expr.printAll elements)).toList ++ ']' :: rest) := by
      simp [Expr.print]
    rw [ht, symbols_plain (by decide), hr _ (endsWord_of_mem (by decide) _),
      symbols_plain (by decide)]
    simp only [List.cons_append, List.append_assoc]
    rfl
  | .name n, h => by
    have ha := Atom.name (a := n.toList)
    rw [String.ofList_toList] at ha
    exact ⟨_, .atom ha, fun rest hr => symbols_name h hr⟩
  | .binary op left right, h => by
    obtain ⟨v, hv, hl⟩ := Expr.reads_print left h.1
    obtain ⟨w, hw, hr⟩ := Expr.reads_print right h.2
    obtain ⟨s, hs, ho⟩ := symbols_operator op
    have he := Expression.binary (a := s.text) (.chain hv) hs (.operand (.chain hw))
    refine ⟨_, .atom (.parens (a := ['(']) (b := [')']) he), fun rest _ => ?_⟩
    have ht : (Expr.print (.binary op left right)).toList ++ rest =
        '(' :: (left.print.toList ++ ' ' ::
          (op.spelling.toList ++ ' ' :: (right.print.toList ++ ')' :: rest))) := by
      simp [Expr.print]
    rw [ht, symbols_plain (by decide), hl _ (endsWord_of_mem (by decide) _),
      symbols_blank (by decide), ho, hr _ (endsWord_of_mem (by decide) _),
      symbols_plain (by decide)]
    simp only [List.cons_append, List.append_assoc]
    rfl
  | .unary op operand, h => by
    obtain ⟨w, hw, hr⟩ := Expr.reads_print operand h
    obtain ⟨s, hs, ho⟩ := symbols_prefixed op (e := operand) h
    have he := Expression.operand (hs w (.chain hw))
    refine ⟨_, .atom (.parens (a := ['(']) (b := [')']) he), fun rest _ => ?_⟩
    have ht : (Expr.print (.unary op operand)).toList ++ rest =
        '(' :: (op.spelling.toList ++ (operand.print.toList ++ ')' :: rest)) := by
      simp [Expr.print]
    rw [ht, symbols_plain (by decide), ho, hr _ (endsWord_of_mem (by decide) _),
      symbols_plain (by decide)]
    simp only [List.cons_append, List.append_assoc]
    rfl
  | .index collection key, h => by
    obtain ⟨v, hv, hc⟩ := Expr.reads_print collection h.1
    obtain ⟨w, hw, hk⟩ := Expr.reads_print key h.2
    refine ⟨_, .index (a := ['[']) (b := [']']) hv (.operand (.chain hw)), fun rest _ => ?_⟩
    have ht : (Expr.print (.index collection key)).toList ++ rest =
        collection.print.toList ++ '[' :: (key.print.toList ++ ']' :: rest) := by
      simp [Expr.print]
    rw [ht, hc _ (endsWord_of_mem (by decide) _), symbols_plain (by decide),
      hk _ (endsWord_of_mem (by decide) _), symbols_plain (by decide)]
    simp only [List.cons_append, List.append_assoc]
    rfl
  | .call callee arguments, h => by
    obtain ⟨v, hv, hf⟩ := Expr.reads_print callee h.1
    obtain ⟨w, hw, hr⟩ := Expr.reads_printAll arguments h.2
    refine ⟨_, .call (a := ['(']) (b := [')']) hv hw, fun rest _ => ?_⟩
    have ht : (Expr.print (.call callee arguments)).toList ++ rest =
        callee.print.toList ++ '(' ::
          ((commas (Expr.printAll arguments)).toList ++ ')' :: rest) := by
      simp [Expr.print]
    rw [ht, hf _ (endsWord_of_mem (by decide) _), symbols_plain (by decide),
      hr _ (endsWord_of_mem (by decide) _), symbols_plain (by decide)]
    simp only [List.cons_append, List.append_assoc]
    rfl

theorem Expr.reads_printAll : ∀ es : List (Expr String), Expr.AllWellFormed es →
    ∃ w, Items w es ∧ Reads (commas (Expr.printAll es)) w
  | [], _ => ⟨[], .nil, fun _ _ => rfl⟩
  | [e], h => by
    obtain ⟨w, hw, hr⟩ := Expr.reads_print e h.1
    exact ⟨w, .last (.operand (.chain hw)), hr⟩
  | e :: e' :: es, h => by
    obtain ⟨v, hv, hf⟩ := Expr.reads_print e h.1
    obtain ⟨w, hw, hr⟩ := Expr.reads_printAll (e' :: es) h.2
    refine ⟨_, .cons (a := [',']) (.operand (.chain hv)) hw, fun rest hend => ?_⟩
    have ht : (commas (Expr.printAll (e :: e' :: es))).toList ++ rest =
        e.print.toList ++ ',' :: ' ' ::
          ((commas (Expr.printAll (e' :: es))).toList ++ rest) := by
      simp [Expr.printAll, commas]
    rw [ht, hf _ (endsWord_of_mem (by decide) _), symbols_plain (by decide),
      symbols_blank (by decide), hr _ hend]
    simp only [List.cons_append, List.append_assoc]
    rfl

end

theorem Expr.reads_printIndices : ∀ es : List (Expr String), Expr.AllWellFormed es →
    ∃ w, Indices w es ∧ Reads (Expr.printIndices es) w
  | [], _ => ⟨[], .nil, fun _ _ => rfl⟩
  | e :: es, h => by
    obtain ⟨v, hv, he⟩ := Expr.reads_print e h.1
    obtain ⟨w, hw, hes⟩ := Expr.reads_printIndices es h.2
    refine ⟨_, .cons (a := ['[']) (b := [']']) (.operand (.chain hv)) hw, fun rest hr => ?_⟩
    have ht : (Expr.printIndices (e :: es)).toList ++ rest =
        '[' :: (e.print.toList ++ ']' :: ((Expr.printIndices es).toList ++ rest)) := by
      simp [Expr.printIndices]
    rw [ht, symbols_plain (by decide), he _ (endsWord_of_mem (by decide) _),
      symbols_plain (by decide), hes _ hr]
    simp only [List.cons_append, List.append_assoc]
    rfl

/-! ### Statements -/

theorem EndsWord.append {a b : List Char} (ha : EndsWord a) (hb : EndsWord b) :
    EndsWord (a ++ b) := by
  cases a with
  | nil => exact hb
  | cons c cs => exact endsWord_cons.mpr (endsWord_cons.mp ha)

theorem Expr.endsWord_printIndices (es : List (Expr String)) :
    EndsWord (Expr.printIndices es).toList := by
  cases es with
  | nil => exact endsWord_nil
  | cons e es =>
    simp only [Expr.printIndices, String.toList_append, List.append_assoc]
    exact endsWord_of_mem (by decide) _

theorem Arms.endsWord_print (depth : Nat) (arms : Arms String) :
    EndsWord (arms.print depth " else ").toList := by
  cases arms with
  | done => exact endsWord_nil
  | otherwise body =>
    simp only [Arms.print, String.toList_append]
    exact endsWord_of_mem (by decide) _
  | arm condition body more =>
    simp only [Arms.print, String.toList_append, List.append_assoc]
    exact endsWord_of_mem (by decide) _

/-- The mark of an assignment between two spaces is one symbol. -/
theorem symbols_assign (rest : List Char) :
    symbols (' ' :: '=' :: ' ' :: rest) = ⟨.equal, ['=']⟩ :: symbols rest := by
  rw [symbols_blank (by decide), symbols_mark rfl (by simp; decide) (by simp),
    symbols_blank (by decide)]

/-- A condition in parentheses and a block after it, as in a loop and in an arm. -/
theorem symbols_guarded {word : String} {k : Kind} (hk : (word, k) ∈ Kind.reserved)
    {condition block : String} {v w : List Symbol} (hv : Reads condition v) (hw : Reads block w)
    {rest : List Char} (hr : EndsWord rest) :
    symbols (word.toList ++ ' ' :: '(' ::
        (condition.toList ++ ')' :: ' ' :: (block.toList ++ rest))) =
      ⟨k, word.toList⟩ :: ⟨.leftParen, ['(']⟩ :: v ++ ⟨.rightParen, [')']⟩ :: w
        ++ symbols rest := by
  rw [symbols_keyword hk, symbols_plain (by decide), hv _ (endsWord_of_mem (by decide) _),
    symbols_plain (by decide), symbols_blank (by decide), hw _ hr]
  simp only [List.cons_append, List.append_assoc]
  rfl

/-- Lines of statements are a block when they are put in braces. -/
theorem Stmt.reads_printBlock (depth : Nat) {ss : List (Stmt String)} {w : List Symbol}
    (hw : Statements w ss)
    (h : ∀ rest, symbols ((Stmt.printLines (depth + 1) ss).toList ++ rest) = w ++ symbols rest) :
    ∃ v, Block v ss ∧ Reads (Stmt.printBlock depth ss) v := by
  refine ⟨_, .braces (a := ['\x7b']) (b := ['\x7d']) hw, fun rest _ => ?_⟩
  cases ss with
  | nil =>
    obtain rfl : w = [] := by simpa [Stmt.printLines] using (h []).symm
    have ht : (Stmt.printBlock depth ([] : List (Stmt String))).toList ++ rest =
        '\x7b' :: '\x7d' :: rest := by
      simp [Stmt.printBlock]
    rw [ht, symbols_plain (by decide), symbols_plain (by decide)]
    rfl
  | cons s ss =>
    have ht : (Stmt.printBlock depth (s :: ss)).toList ++ rest = '\x7b' :: '\n' ::
        ((Stmt.printLines (depth + 1) (s :: ss)).toList ++
          ((indent depth).toList ++ '\x7d' :: rest)) := by
      simp [Stmt.printBlock, Stmt.printLines]
    rw [ht, symbols_plain (by decide), symbols_blank (by decide), h, symbols_indent,
      symbols_plain (by decide)]
    simp only [List.cons_append, List.append_assoc]
    rfl

mutual

theorem Stmt.reads_print : ∀ (s : Stmt String) (depth : Nat), s.WellFormed →
    ∃ w, Statement w s ∧ Reads (s.print depth) w
  | .choose .done, _, h => absurd rfl h.1
  | .choose (.otherwise _), _, h => absurd rfl h.1
  | .choose (.arm condition body more), depth, h => by
    obtain ⟨v, hv, hc⟩ := condition.reads_print h.2.1
    obtain ⟨w, hw, hl⟩ := Stmt.reads_printLines body (depth + 1) h.2.2.1
    obtain ⟨u, hu, hb⟩ := Stmt.reads_printBlock depth hw hl
    obtain ⟨x, hx, hm⟩ := more.reads_print depth h.2.2.2
    refine ⟨_, .choose (a := "if".toList) (b := ['(']) (c := [')']) (.operand (.chain hv)) hu hx,
      fun rest hr => ?_⟩
    have ht : (Stmt.print depth (.choose (.arm condition body more))).toList ++ rest =
        "if".toList ++ ' ' :: '(' :: (condition.print.toList ++ ')' :: ' ' ::
          ((Stmt.printBlock depth body).toList ++
            ((more.print depth " else ").toList ++ rest))) := by
      simp [Stmt.print, Arms.print]
    have hends := (more.endsWord_print depth).append hr
    rw [ht, symbols_guarded (k := .ifWord) (by decide) hc hb hends, hm _ hr]
    simp only [List.cons_append, List.append_assoc]
  | .loop condition body, depth, h => by
    obtain ⟨v, hv, hc⟩ := condition.reads_print h.1
    obtain ⟨w, hw, hl⟩ := Stmt.reads_printLines body (depth + 1) h.2
    obtain ⟨u, hu, hb⟩ := Stmt.reads_printBlock depth hw hl
    refine ⟨_, .loop (a := "while".toList) (b := ['(']) (c := [')']) (.operand (.chain hv)) hu,
      fun rest hr => ?_⟩
    have ht : (Stmt.print depth (.loop condition body)).toList ++ rest =
        "while".toList ++ ' ' :: '(' :: (condition.print.toList ++ ')' :: ' ' ::
          ((Stmt.printBlock depth body).toList ++ rest)) := by
      simp [Stmt.print]
    rw [ht, symbols_guarded (k := .whileWord) (by decide) hc hb hr]
  | .ret value, depth, h => by
    obtain ⟨v, hv, he⟩ := value.reads_print h
    refine ⟨_, .ret (a := "return".toList) (b := [';']) (.operand (.chain hv)), fun rest _ => ?_⟩
    have ht : (Stmt.print depth (.ret value)).toList ++ rest =
        "return".toList ++ ' ' :: (value.print.toList ++ ';' :: rest) := by
      simp [Stmt.print]
    rw [ht, symbols_keyword (k := .returnWord) (by decide), he _ (endsWord_of_mem (by decide) _),
      symbols_plain (by decide)]
    simp only [List.cons_append, List.append_assoc]
    rfl
  | .assign target indices value, depth, ⟨hn, hi, hval⟩ => by
    obtain ⟨v, hv, hi⟩ := Expr.reads_printIndices indices hi
    obtain ⟨w, hw, he⟩ := value.reads_print hval
    have hs := Statement.assign (a := "set".toList) (b := ['=']) (c := [';']) (n := target.toList)
      hv (.operand (.chain hw))
    rw [String.ofList_toList] at hs
    refine ⟨_, hs, fun rest _ => ?_⟩
    have ht : (Stmt.print depth (.assign target indices value)).toList ++ rest =
        "set".toList ++ ' ' :: (target.toList ++ ((Expr.printIndices indices).toList ++
          ' ' :: '=' :: ' ' :: (value.print.toList ++ ';' :: rest))) := by
      simp [Stmt.print, Nominal.spell]
    have hends : ∀ cs, EndsWord (' ' :: cs) := endsWord_of_mem (by decide)
    rw [ht, symbols_keyword (k := .setWord) (by decide),
      symbols_name hn ((Expr.endsWord_printIndices indices).append (hends _)), hi _ (hends _),
      symbols_assign, he _ (endsWord_of_mem (by decide) _), symbols_plain (by decide)]
    simp only [List.cons_append, List.append_assoc]
    rfl
  | .declare name initializer, depth, ⟨hn, hval⟩ => by
    obtain ⟨v, hv, he⟩ := initializer.reads_print hval
    have hs := Statement.declare (a := "let".toList) (b := ['=']) (c := [';']) (n := name.toList)
      (.operand (.chain hv))
    rw [String.ofList_toList] at hs
    refine ⟨_, hs, fun rest _ => ?_⟩
    have ht : (Stmt.print depth (.declare name initializer)).toList ++ rest =
        "let".toList ++ ' ' :: (name.toList ++
          ' ' :: '=' :: ' ' :: (initializer.print.toList ++ ';' :: rest)) := by
      simp [Stmt.print, Nominal.spell]
    rw [ht, symbols_keyword (k := .letWord) (by decide),
      symbols_name hn (endsWord_of_mem (by decide) _), symbols_assign,
      he _ (endsWord_of_mem (by decide) _), symbols_plain (by decide)]
    simp only [List.cons_append, List.append_assoc]
    rfl
  | .run value, depth, h => by
    obtain ⟨v, hv, he⟩ := value.reads_print h
    refine ⟨_, .run (a := "do".toList) (b := [';']) (.operand (.chain hv)), fun rest _ => ?_⟩
    have ht : (Stmt.print depth (.run value)).toList ++ rest =
        "do".toList ++ ' ' :: (value.print.toList ++ ';' :: rest) := by
      simp [Stmt.print]
    rw [ht, symbols_keyword (k := .doWord) (by decide), he _ (endsWord_of_mem (by decide) _),
      symbols_plain (by decide)]
    simp only [List.cons_append, List.append_assoc]
    rfl

theorem Arms.reads_print : ∀ (arms : Arms String) (depth : Nat), arms.WellFormed →
    ∃ w, Otherwise w arms ∧ Reads (arms.print depth " else ") w
  | .done, _, _ => ⟨[], .done, fun _ _ => rfl⟩
  | .otherwise body, depth, h => by
    obtain ⟨w, hw, hl⟩ := Stmt.reads_printLines body (depth + 1) h
    obtain ⟨u, hu, hb⟩ := Stmt.reads_printBlock depth hw hl
    refine ⟨_, .otherwise (a := "else".toList) hu, fun rest hr => ?_⟩
    have ht : (Arms.print depth " else " (.otherwise body)).toList ++ rest =
        ' ' :: ("else".toList ++ ' ' :: ((Stmt.printBlock depth body).toList ++ rest)) := by
      simp [Arms.print]
    rw [ht, symbols_blank (by decide), symbols_keyword (k := .elseWord) (by decide), hb _ hr]
    rfl
  | .arm condition body more, depth, h => by
    obtain ⟨v, hv, hc⟩ := condition.reads_print h.1
    obtain ⟨w, hw, hl⟩ := Stmt.reads_printLines body (depth + 1) h.2.1
    obtain ⟨u, hu, hb⟩ := Stmt.reads_printBlock depth hw hl
    obtain ⟨x, hx, hm⟩ := more.reads_print depth h.2.2
    refine ⟨_, .arm (a := "else".toList) (b := "if".toList) (c := ['(']) (d := [')'])
      (.operand (.chain hv)) hu hx, fun rest hr => ?_⟩
    have ht : (Arms.print depth " else " (.arm condition body more)).toList ++ rest =
        ' ' :: ("else".toList ++ ' ' :: ("if".toList ++ ' ' :: '(' ::
          (condition.print.toList ++ ')' :: ' ' :: ((Stmt.printBlock depth body).toList ++
            ((more.print depth " else ").toList ++ rest))))) := by
      simp [Arms.print]
    have hends := (more.endsWord_print depth).append hr
    rw [ht, symbols_blank (by decide), symbols_keyword (k := .elseWord) (by decide),
      symbols_guarded (k := .ifWord) (by decide) hc hb hends, hm _ hr]
    simp only [List.cons_append, List.append_assoc]

/-- Lines are read alike whatever follows: each of them ends in a line break. -/
theorem Stmt.reads_printLines : ∀ (ss : List (Stmt String)) (depth : Nat),
    Stmt.AllWellFormed ss → ∃ w, Statements w ss ∧
      ∀ rest, symbols ((Stmt.printLines depth ss).toList ++ rest) = w ++ symbols rest
  | [], _, _ => ⟨[], .nil, fun _ => rfl⟩
  | s :: ss, depth, h => by
    obtain ⟨v, hv, hs⟩ := s.reads_print depth h.1
    obtain ⟨w, hw, hss⟩ := Stmt.reads_printLines ss depth h.2
    refine ⟨v ++ w, .cons hv hw, fun rest => ?_⟩
    have ht : (Stmt.printLines depth (s :: ss)).toList ++ rest = (indent depth).toList ++
        ((s.print depth).toList ++ '\n' :: ((Stmt.printLines depth ss).toList ++ rest)) := by
      simp [Stmt.printLines]
    rw [ht, symbols_indent, hs _ (endsWord_of_mem (by decide) _), symbols_blank (by decide),
      hss, List.append_assoc]

end

/-! ### Declarations and programs -/

/-- Names with commas between them: the first is one symbol, the others are parameters after it. -/
theorem reads_commas : ∀ (n : String) (ns : List String), (∀ m ∈ n :: ns, IsName m) →
    ∃ w, MoreParameters w ns ∧ Reads (commas (n :: ns)) (⟨.identifier, n.toList⟩ :: w)
  | n, [], h => by
    refine ⟨[], .nil, fun rest hr => ?_⟩
    exact symbols_name (h n List.mem_cons_self) hr
  | n, m :: ns, h => by
    obtain ⟨hn, hns⟩ := List.forall_mem_cons.mp h
    obtain ⟨w, hw, hr⟩ := reads_commas m ns hns
    have hp := MoreParameters.cons (a := [',']) (n := m.toList) hw
    rw [String.ofList_toList] at hp
    refine ⟨_, hp, fun rest hend => ?_⟩
    have ht : (commas (n :: m :: ns)).toList ++ rest =
        n.toList ++ ',' :: ' ' :: ((commas (m :: ns)).toList ++ rest) := by
      simp [commas]
    rw [ht, symbols_name hn (endsWord_of_mem (by decide) _), symbols_plain (by decide),
      symbols_blank (by decide), hr _ hend]
    rfl

theorem reads_parameters (ns : List String) (h : ∀ n ∈ ns, IsName n) :
    ∃ w, Parameters w ns ∧ Reads (commas ns) w := by
  cases ns with
  | nil => exact ⟨[], .nil, fun _ _ => rfl⟩
  | cons n ns =>
    obtain ⟨w, hw, hr⟩ := reads_commas n ns h
    have hp := Parameters.cons (n := n.toList) hw
    rw [String.ofList_toList] at hp
    exact ⟨_, hp, hr⟩

theorem Declaration.reads_print (d : Declaration String) (h : d.WellFormed) :
    ∃ w, Decl w d ∧ Reads d.print w := by
  cases d with
  | load path =>
    refine ⟨_, .load (a := "import".toList) (c := [';']) (Literal.body_encode path),
      fun rest _ => ?_⟩
    have ht : (Declaration.print (.load path : Declaration String)).toList ++ rest =
        "import".toList ++ ' ' :: ((Literal.encode path).toList ++ ';' :: rest) := by
      simp [Declaration.print]
    rw [ht, symbols_keyword (k := .importWord) (by decide), symbols_encode,
      symbols_plain (by decide)]
    rfl
  | global name =>
    have hd := Decl.global (a := "global".toList) (b := [';']) (n := name.toList)
    rw [String.ofList_toList] at hd
    refine ⟨_, hd, fun rest _ => ?_⟩
    have ht : (Declaration.print (.global name : Declaration String)).toList ++ rest =
        "global".toList ++ ' ' :: (name.toList ++ ';' :: rest) := by
      simp [Declaration.print]
    rw [ht, symbols_keyword (k := .globalWord) (by decide),
      symbols_name h (endsWord_of_mem (by decide) _), symbols_plain (by decide)]
    rfl
  | define f =>
    obtain ⟨name, parameters, body⟩ := f
    obtain ⟨hn, hps, hbody⟩ := h
    obtain ⟨v, hv, hp⟩ := reads_parameters parameters hps
    obtain ⟨w, hw, hl⟩ := Stmt.reads_printLines body 1 hbody
    obtain ⟨u, hu, hb⟩ := Stmt.reads_printBlock 0 hw hl
    have hd := Decl.define (a := "function".toList) (b := ['(']) (c := [')']) (n := name.toList)
      hv hu
    rw [String.ofList_toList] at hd
    refine ⟨_, hd, fun rest hr => ?_⟩
    have ht : (Declaration.print (.define ⟨name, parameters, body⟩)).toList ++ rest =
        "function".toList ++ ' ' :: (name.toList ++ '(' :: ((commas parameters).toList ++
          ')' :: ' ' :: ((Stmt.printBlock 0 body).toList ++ rest))) := by
      simp [Declaration.print, FunctionDef.print, Nominal.spell]
    rw [ht, symbols_keyword (k := .functionWord) (by decide),
      symbols_name hn (endsWord_of_mem (by decide) _), symbols_plain (by decide),
      hp _ (endsWord_of_mem (by decide) _), symbols_plain (by decide),
      symbols_blank (by decide), hb _ hr]
    simp only [List.cons_append, List.append_assoc]
    rfl

theorem Declaration.derives_printAll : ∀ ds : List (Declaration String),
    (∀ d ∈ ds, d.WellFormed) → Decls (symbols (Declaration.printAll ds).toList) ds
  | [], _ => by
    rw [Declaration.printAll, String.toList_empty, symbols_nil]
    exact .nil
  | [d], h => by
    obtain ⟨v, hv, hd⟩ := d.reads_print (h d List.mem_cons_self)
    have ht : (Declaration.printAll [d]).toList = d.print.toList ++ ['\n'] := by
      simp [Declaration.printAll]
    rw [ht, hd _ (endsWord_of_mem (by decide) _), symbols_blank (by decide), symbols_nil]
    exact .cons hv .nil
  | d :: d' :: ds, h => by
    obtain ⟨v, hv, hd⟩ := d.reads_print (h d List.mem_cons_self)
    have hds := Declaration.derives_printAll (d' :: ds) (List.forall_mem_cons.mp h).2
    have ht : (Declaration.printAll (d :: d' :: ds)).toList =
        d.print.toList ++ '\n' :: '\n' :: (Declaration.printAll (d' :: ds)).toList := by
      simp [Declaration.printAll]
    rw [ht, hd _ (endsWord_of_mem (by decide) _), symbols_blank (by decide),
      symbols_blank (by decide)]
    exact .cons hv hds

/-- The grammar derives a well-formed program from its own text. -/
theorem Program.derives_print {p : Program String} (h : p.WellFormed) :
    Derives (symbols p.print.toList) p :=
  Declaration.derives_printAll p.declarations h

/-- What the parser returns is well formed. -/
theorem wellFormed_of_parse_eq_ok {source : String} {p : Program String}
    (h : (parse source).value = .ok p) : p.WellFormed := by
  have hd := Parser.declarations_sound _ (parse_eq_ok_iff.mp h)
  exact hd.wellFormed (named_tokens 0 source.toList)

/-- The parser returns well-formed programs only, and a program is read back from its own text
exactly when it is well formed. -/
theorem parse_print_iff_wellFormed :
    (∀ source p, (parse source).value = .ok p → p.WellFormed) ∧
      ∀ p : Program String, (parse p.print).value = .ok p ↔ p.WellFormed := by
  refine ⟨fun source p => wellFormed_of_parse_eq_ok, fun p => ⟨wellFormed_of_parse_eq_ok, ?_⟩⟩
  intro h
  rw [parse_eq_ok_iff]
  exact Parser.declarations_complete (Program.derives_print h) rfl

end StackScript
