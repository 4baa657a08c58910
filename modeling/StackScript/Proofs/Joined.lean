/-
# Sources one after the other

Two sources make one with the end of a line between them. If the first can be read, the tokens of
the whole are those of the first and then those of the second, moved by the width of what stands
before them: a comment at the end of the first stops at the line's end, a word or number there
cannot go on, and the only token that could is a string without an end, which no program has.

The parser then reads the declarations of the first and goes on with the moved tokens of the
second as it would with the tokens themselves. So the whole is the two programs in order, or the
fault of the second, whose position is as many lines further down as the first source has, in the
same column. Lowering goes declaration by declaration, so the code of the whole is the code of the
first and then that of the second, and a session that has other code already puts both after it.

Key definition: `Position.down`.
Key theorems: `tokens_join`, `position_join`, `parse_join`, `compile_join`.
-/
import StackScript.Compiler
import StackScript.Proofs.LongestMatch
import StackScript.Proofs.ParserExact
import StackScript.Proofs.ParserUniform
import StackScript.Proofs.Slots
import StackScript.Proofs.StackDiscipline

namespace StackScript

open Grammar

/-! ### Tokens -/

mutual

/-- If a text is more than trivia, what follows its last line has no part in them. Otherwise the
trivia go on. -/
theorem splitTrivia_join (b : List Char) : ∀ a : List Char, splitTrivia (a ++ '\n' :: b) =
    if (splitTrivia a).2 = [] then (a ++ '\n' :: (splitTrivia b).1, (splitTrivia b).2)
    else ((splitTrivia a).1, (splitTrivia a).2 ++ '\n' :: b)
  | [] => by
    rw [List.nil_append, splitTrivia_blank (by decide)]
    simp [splitTrivia]
  | c :: cs => by
    by_cases hc : c = '/' ∧ cs.head? = some '/'
    · obtain ⟨rfl, hd⟩ := hc
      obtain ⟨ds, rfl⟩ := List.head?_eq_some_iff.mp hd
      have hj := splitComment_join b ds
      rw [List.cons_append, List.cons_append, splitTrivia_comment, splitTrivia_comment, hj]
      split <;> simp
    · have hc' : c = '/' → (cs ++ '\n' :: b).head? ≠ some '/' := by
        intro h hd
        cases cs with
        | nil => simp at hd
        | cons d ds => exact hc ⟨h, by simpa using hd⟩
      cases hb : isBlank c with
      | true =>
        have hj := splitTrivia_join b cs
        rw [List.cons_append, splitTrivia_blank hb, splitTrivia_blank hb, hj]
        split <;> simp
      | false =>
        rw [List.cons_append, splitTrivia_lexeme hb hc',
          splitTrivia_lexeme hb fun h hd => hc ⟨h, hd⟩]
        simp
termination_by a => a.length

/-- The same inside a comment, which the end of the line ends. -/
theorem splitComment_join (b : List Char) : ∀ a : List Char, splitComment (a ++ '\n' :: b) =
    if (splitComment a).2 = [] then (a ++ '\n' :: (splitTrivia b).1, (splitTrivia b).2)
    else ((splitComment a).1, (splitComment a).2 ++ '\n' :: b)
  | [] => by simp [splitComment]
  | c :: cs => by
    by_cases hc : c = '\n'
    · simp only [List.cons_append, splitComment, if_pos hc, splitTrivia_join b cs]
      split <;> simp
    · simp only [List.cons_append, splitComment, if_neg hc, splitComment_join b cs]
      split <;> simp
termination_by a => a.length

end

/-- A token that is valid ends at the same place if a line end follows its text. -/
theorem lexeme_join {c : Char} {cs : List Char} (h : (lexeme c cs).kind ≠ .invalid)
    (b : List Char) : lexeme c (cs ++ '\n' :: b) =
      { lexeme c cs with rest := (lexeme c cs).rest ++ '\n' :: b } := by
  have hblank : isBlank '\n' = true := by decide
  obtain ⟨ds, htext, hagain⟩ := lexeme_again (.of_blank_after hblank b h)
  rwa [← List.append_assoc, lexeme_tail htext] at hagain

theorem next?_join_none {n : Nat} {a : List Char} (h : next? n a = none) (b : List Char) :
    next? n (a ++ '\n' :: b) = next? (n + width a + 1) b := by
  have ha : (splitTrivia a).2 = [] := by
    rw [next?_eq] at h
    cases hs : (splitTrivia a).2 with
    | nil => rfl
    | cons c cs => simp [hs] at h
  rw [next?_eq, next?_eq, splitTrivia_join, if_pos ha]
  have hw : n + width (a ++ '\n' :: (splitTrivia b).1) =
      n + width a + 1 + width (splitTrivia b).1 := by
    rw [width_append, width_cons, show Char.utf8Size '\n' = 1 by decide]
    omega
  simp only [hw]

theorem next?_join_some {n : Nat} {a rest : List Char} {t : Token}
    (h : next? n a = some (t, rest)) (ht : t.kind ≠ .invalid) (b : List Char) :
    next? n (a ++ '\n' :: b) = some (t, rest ++ '\n' :: b) := by
  rw [next?_eq] at h ⊢
  cases hs : (splitTrivia a).2 with
  | nil => simp [hs] at h
  | cons c cs =>
    simp only [hs, Option.some.injEq, Prod.mk.injEq] at h
    obtain ⟨rfl, rfl⟩ := h
    rw [splitTrivia_join, if_neg (by simp [hs]), hs]
    simp only [List.cons_append, lexeme_join ht b]

/-- If all tokens of a text are valid, those of a text on the lines after it follow them. -/
theorem tokens_join (b : List Char) : ∀ (n : Nat) (a : List Char),
    (∀ t ∈ tokens n a, t.kind ≠ .invalid) →
      tokens n (a ++ '\n' :: b) = tokens n a ++ tokens (n + width a + 1) b
  | n, a, h => by
    cases ha : next? n a with
    | none =>
      rw [tokens_eq n (a ++ '\n' :: b), next?_join_none ha b, ← tokens_eq, tokens_eq n a, ha]
      rfl
    | some p =>
      obtain ⟨t, rest⟩ := p
      have hlt := length_rest_lt ha
      have ht : tokens n a = t :: tokens t.stop rest := by rw [tokens_eq, ha]
      rw [ht] at h ⊢
      -- the second text stands where it stood before the first token was read
      have hw : n + width a = t.stop + width rest := by
        obtain ⟨skipped, rfl, hs, -⟩ := next?_eq_some ha
        simp only [width_append, Token.stop, hs]
        omega
      rw [tokens_eq n (a ++ '\n' :: b), next?_join_some ha (h t List.mem_cons_self) b, hw]
      simp only [List.cons_append]
      rw [tokens_join b t.stop rest fun u hu => h u (List.mem_cons_of_mem t hu)]
termination_by _ a => a.length

/-! ### Positions -/

/-- The same column `k` lines further down. -/
def Position.down (p : Position) (k : Nat) : Position := ⟨p.line + k, p.column⟩

theorem Position.after_down (p : Position) (k : Nat) (c : Char) :
    (p.down k).after c = (p.after c).down k := by
  unfold Position.after
  split
  · simp [Position.down, Nat.add_right_comm]
  · rfl

theorem positionFrom_down (k : Nat) : ∀ (p : Position) (cs : List Char) (n : Nat),
    positionFrom (p.down k) cs n = (positionFrom p cs n).down k
  | _, [], _ => rfl
  | p, c :: cs, n => by
    unfold positionFrom
    split
    · rfl
    · rw [Position.after_down, positionFrom_down k]

/-- An offset past a first part is counted from the position after that part. -/
theorem positionFrom_append (b : List Char) (n : Nat) : ∀ (p : Position) (a : List Char),
    positionFrom p (a ++ b) (width a + n) = positionFrom (a.foldl Position.after p) b n
  | p, [] => by simp
  | p, c :: a => by
    have hlt : ¬ width (c :: a) + n < c.utf8Size := by
      rw [width_cons]
      omega
    have hn : width (c :: a) + n - c.utf8Size = width a + n := by
      rw [width_cons]
      omega
    rw [List.cons_append, positionFrom, if_neg hlt, hn, positionFrom_append b n, List.foldl_cons]

theorem line_foldl_after : ∀ (p : Position) (a : List Char),
    (a.foldl Position.after p).line = p.line + a.count '\n'
  | p, [] => by simp
  | p, c :: a => by
    rw [List.foldl_cons, line_foldl_after, Position.after, List.count_cons]
    by_cases hc : c = '\n'
    · simp only [hc, beq_self_eq_true, if_true]
      omega
    · simp [hc]

/-- Each line of a first text moves the second one line down. -/
theorem position_join (a b : List Char) (n : Nat) :
    position (a ++ '\n' :: b) (width a + 1 + n) = (position b n).down (a.count '\n' + 1) := by
  have hw : width (a ++ ['\n']) = width a + 1 := by
    rw [width_append]
    rfl
  have hp : (a ++ ['\n']).foldl Position.after .start =
      Position.down .start (a.count '\n' + 1) := by
    rw [List.foldl_append, List.foldl_cons, List.foldl_nil, Position.after, if_pos rfl,
      line_foldl_after]
    rfl
  rw [position, List.append_cons, ← hw, positionFrom_append, hp, positionFrom_down]
  rfl

/-! ### Programs -/

/-- An error of a source is the same in a source that has it on its last lines. -/
theorem Fault.toError_join {f g : Fault} (a b : List Char)
    (h : f.Related (fun t u => u = t.move (width a + 1)) g) :
    g.toError (a ++ '\n' :: b) =
      ⟨f.cause, (f.toError b).position.down (a.count '\n' + 1)⟩ := by
  have ho : g.offset (width (a ++ '\n' :: b)) = width a + 1 + f.offset (width b) := by
    obtain ⟨cause, blamed, passed⟩ := f
    obtain ⟨cause', blamed', passed'⟩ := g
    cases h.blamed with
    | nil =>
      simp only [Fault.offset, width_append, width_cons, show Char.utf8Size '\n' = 1 by decide]
      omega
    | cons htu _ =>
      subst htu
      exact Nat.add_comm _ _
  rw [Fault.toError, h.cause, ho, position_join]
  rfl

/-- After a source that is a program stand the declarations of the second source, or its error. -/
theorem parse_join {a : String} {p : Program String} (h : (parse a).value = .ok p) (b : String) :
    (parse (a ++ "\n" ++ b)).value =
      match (parse b).value with
      | .ok q => .ok ⟨p.declarations ++ q.declarations⟩
      | .error e => .error ⟨e.cause, e.position.down (a.toList.count '\n' + 1)⟩ := by
  have hd := Parser.declarations_sound _ (parse_eq_ok_iff.mp h)
  have hvalid : ∀ t ∈ tokens 0 a.toList, t.kind ≠ .invalid := fun t ht =>
    hd.valid t.symbol (List.mem_map_of_mem ht)
  have htext : (a ++ "\n" ++ b).toList = a.toList ++ '\n' :: b.toList := by simp
  have hts : tokens 0 (a ++ "\n" ++ b).toList =
      tokens 0 a.toList ++ (tokens 0 b.toList).map (Token.move (width a.toList + 1)) := by
    rw [htext, tokens_join _ _ _ hvalid, ← tokens_move, Nat.add_assoc]
  have hmoved : List.Forall₂ (fun t u => u = Token.move (width a.toList + 1) t)
      (tokens 0 b.toList) ((tokens 0 b.toList).map (Token.move (width a.toList + 1))) := by
    rw [List.forall₂_map_right_iff, List.forall₂_same]
    exact fun _ _ => rfl
  have hsymbol : ∀ t u, u = Token.move (width a.toList + 1) t → t.symbol = u.symbol := by
    rintro t u rfl
    rfl
  have hrel := Parser.declarations_related hsymbol hmoved
  rw [parse_value (a ++ "\n" ++ b), hts, Parser.declarations_append hd rfl, parse_value b]
  generalize Parser.declarations (tokens 0 b.toList) = r at hrel
  generalize Parser.declarations ((tokens 0 b.toList).map _) = r' at hrel
  obtain ⟨ds, f⟩ := r
  obtain ⟨ds', g⟩ := r'
  obtain ⟨rfl, hfault⟩ := hrel
  cases hfault with
  | none => rfl
  | some hf => exact congrArg Except.error (htext ▸ Fault.toError_join a.toList b.toList hf)

/-! ### Code -/

theorem Declaration.lowerAll_append {entry : String} {es : List (Declaration Ref)}
    {more : List Instr} (hes : (Declaration.lowerAll entry es).value = .ok more) :
    ∀ {ds : List (Declaration Ref)} {code : List Instr},
      (Declaration.lowerAll entry ds).value = .ok code →
        (Declaration.lowerAll entry (ds ++ es)).value = .ok (code ++ more)
  | [], _, h => by
    obtain rfl := Except.ok.inj h
    exact hes
  | d :: ds, _, h => by
    obtain ⟨part, rest, hd, hds, rfl⟩ := Declaration.lowerAll_cons_eq_ok.mp h
    have hrest := Declaration.lowerAll_append hes hds
    exact Declaration.lowerAll_cons_eq_ok.mpr ⟨part, _, hd, hrest, List.append_assoc ..⟩

theorem compile_eq_syntaxError_iff {entry source : String} {e : SyntaxError} :
    (compile entry source).value = .error (.syntaxError e) ↔ (parse source).value = .error e := by
  unfold compile
  cases hp : (parse source).value with
  | error e' => simp [Session.add, hp, Except.map]
  | ok p =>
    obtain ⟨code, hcode⟩ := p.lower_resolve entry
    have hs := (Session.add_eq_ok (s := Session.start entry)).mpr ⟨p, code, hp, hcode, rfl⟩
    simp [hs, Except.map]

/-- The code of two programs in one is that of the first and then that of the second. -/
theorem Program.lower_resolve_append {entry : String} {p q : Program String}
    {code more : List Instr} (hp : (p.resolve.value.lower entry).value = .ok code)
    (hq : (q.resolve.value.lower entry).value = .ok more) :
    ((⟨p.declarations ++ q.declarations⟩ : Program String).resolve.value.lower entry).value =
      .ok (code ++ more) := by
  rw [Program.resolve_value, Program.lower] at hp hq ⊢
  rw [List.map_append]
  exact Declaration.lowerAll_append hq hp

/-- A source that compiles, and another on the lines after it. If that compiles too, so does the
whole, to the code of the one and then that of the other; and a session that adds both, whatever
it holds, keeps what it has and puts the same code after it. If the second has a syntax error, the
whole has it, as many lines further down as the first has and in the same column. -/
theorem compile_join {entry a b : String} {code : Code}
    (ha : (compile entry a).value = .ok code) :
    (∀ code', (compile entry b).value = .ok code' →
      (compile entry (a ++ "\n" ++ b)).value =
        .ok (.ofInstructions (code.instructions ++ code'.instructions)) ∧
      ∀ earlier : List Instr,
        ((⟨entry, earlier⟩ : Session).add a).value =
          .ok ⟨entry, earlier ++ code.instructions⟩ ∧
        ((⟨entry, earlier ++ code.instructions⟩ : Session).add b).value =
          .ok ⟨entry, earlier ++ code.instructions ++ code'.instructions⟩) ∧
    ∀ e, (compile entry b).value = .error (.syntaxError e) →
      (compile entry (a ++ "\n" ++ b)).value = .error (.syntaxError
        ⟨e.cause, ⟨e.position.line + 1 + a.toList.count '\n', e.position.column⟩⟩) := by
  obtain ⟨p, first, hp, hfirst, rfl⟩ := compile_eq_ok_iff.mp ha
  have hparse := parse_join hp b
  refine ⟨fun code' hb => ?_, fun e he => ?_⟩
  · obtain ⟨q, second, hq, hsecond, rfl⟩ := compile_eq_ok_iff.mp hb
    rw [hq] at hparse
    have hboth := Program.lower_resolve_append hfirst hsecond
    refine ⟨compile_eq_ok_iff.mpr ⟨_, _, hparse, hboth, rfl⟩, fun earlier => ⟨?_, ?_⟩⟩
    · exact Session.add_eq_ok.mpr ⟨p, first, hp, hfirst, rfl⟩
    · exact Session.add_eq_ok.mpr ⟨q, second, hq, hsecond, rfl⟩
  · rw [compile_eq_syntaxError_iff.mp he] at hparse
    have hline : e.position.line + (a.toList.count '\n' + 1) =
        e.position.line + 1 + a.toList.count '\n' := by omega
    simp only [Position.down, hline] at hparse
    exact compile_eq_syntaxError_iff.mpr hparse

/-- A comment ends the first source, and the name of a function in the second has a letter of two
bytes; in place of the second, a source whose second line has the error. -/
theorem compile_join_comment :
    (∃ code, (compile "main" "global x;\n// é").value = .ok code ∧
      ∃ code', (compile "main" "function é() \x7b\x7d").value = .ok code' ∧
        (compile "main" ("global x;\n// é" ++ "\n" ++ "function é() \x7b\x7d")).value =
          .ok (.ofInstructions (code.instructions ++ code'.instructions))) ∧
    (compile "main" "\nglobal é").value = .error (.syntaxError ⟨.expected .semicolon, ⟨2, 9⟩⟩) ∧
    (compile "main" ("global x;\n// é" ++ "\n" ++ "\nglobal é")).value =
      .error (.syntaxError ⟨.expected .semicolon, ⟨4, 9⟩⟩) := by
  have ha : (compile "main" "global x;\n// é").value.toOption =
      some (.ofInstructions [.string "x", .declareGlobal]) := by decide +kernel
  have hb : (compile "main" "function é() \x7b\x7d").value.toOption =
      some (.ofInstructions [.startBlock, .null, .ret, .endBlock, .define "é" 0]) := by
    decide +kernel
  have he : (match (compile "main" "\nglobal é").value with
      | .error e => some e
      | .ok _ => none) = some (.syntaxError ⟨.expected .semicolon, ⟨2, 9⟩⟩) := by decide +kernel
  have ha' := compile_eq_ok_of_toOption ha
  have hb' := compile_eq_ok_of_toOption hb
  have he' : (compile "main" "\nglobal é").value =
      .error (.syntaxError ⟨.expected .semicolon, ⟨2, 9⟩⟩) := by
    cases hc : (compile "main" "\nglobal é").value with
    | error e =>
      rw [hc] at he
      exact congrArg _ (Option.some.inj he)
    | ok code =>
      rw [hc] at he
      cases he
  exact ⟨⟨_, ha', _, hb', ((compile_join ha').1 _ hb').1⟩, he', (compile_join ha').2 _ he'⟩

end StackScript
