/-
# The one failure of lowering

Lowering fails only where the tree has a `let` whose name was given no slot. Every tree can be
lowered up to there, also one that no source has, such as an `if` without arms: all statements are
visited once, in the order of the source, and what they are nested in makes no difference. So it is
the first such `let` of the tree that the failure names (`Program.failure?_lower`).

Resolving gives a slot to every `let`, so a source that can be read has code, and a source without
code has a syntax error. That reading itself cannot fail in any other way is a matter of the places
where text is cut: they all fall between characters, in order and inside the text
(`Token.Cuts`).

Key definitions: `Program.lets`, `Ref.free?`, `Token.Cuts`.
Key theorems: `Stmt.unslotted_eq`, `Program.failure?_lower`, `Program.lower_eq_error_iff`,
`Lexed.cuts`, `lower_fails_at_first_unslotted`.
-/
import StackScript.Proofs.Escapes
import StackScript.Proofs.Scoping

namespace StackScript

/-! ### Lowering -/

/-- The name, if it has no slot. -/
def Ref.free? : Ref → Option String
  | .slot _ => none
  | .free n => some n

theorem Ref.free?_eq_some {r : Ref} {n : String} : r.free? = some n ↔ r = .free n := by
  cases r <;> simp [Ref.free?]

/-- The names that `let`s bind in a program, at any depth and in the order of the source. -/
def Program.lets {ν : Type} (p : Program ν) : List ν :=
  p.functions.flatMap fun f => Occurrence.bound (Stmt.occurrencesAll f.body)

mutual

/-- The names without a slot are those that `let`s bind to none. -/
theorem Stmt.unslotted_eq : ∀ s : Stmt Ref,
    s.unslotted = (Occurrence.bound s.occurrences).filterMap Ref.free?
  | .choose arms => arms.unslotted_eq
  | .loop condition body => by
    rw [Stmt.occurrences, Occurrence.bound_append, condition.bound_occurrences]
    exact Stmt.unslottedAll_eq body
  | .ret value => by
    rw [Stmt.occurrences, value.bound_occurrences]
    rfl
  | .assign _ indices value => by
    rw [Stmt.occurrences, Occurrence.bound_use, Occurrence.bound_append,
      Expr.bound_occurrencesAll, value.bound_occurrences]
    rfl
  | .declare (.slot _) initializer => by
    rw [Stmt.occurrences, Occurrence.bound_append, initializer.bound_occurrences]
    rfl
  | .declare (.free _) initializer => by
    rw [Stmt.occurrences, Occurrence.bound_append, initializer.bound_occurrences]
    rfl
  | .run value => by
    rw [Stmt.occurrences, value.bound_occurrences]
    rfl

theorem Arms.unslotted_eq : ∀ arms : Arms Ref,
    arms.unslotted = (Occurrence.bound arms.occurrences).filterMap Ref.free?
  | .done => rfl
  | .otherwise body => Stmt.unslottedAll_eq body
  | .arm condition body rest => by
    rw [Arms.unslotted, Arms.occurrences, Occurrence.bound_append, Occurrence.bound_append,
      condition.bound_occurrences, List.nil_append, List.filterMap_append,
      Stmt.unslottedAll_eq body, rest.unslotted_eq]

theorem Stmt.unslottedAll_eq : ∀ ss : List (Stmt Ref),
    Stmt.unslottedAll ss = (Occurrence.bound (Stmt.occurrencesAll ss)).filterMap Ref.free?
  | [] => rfl
  | s :: ss => by
    rw [Stmt.unslottedAll, Stmt.occurrencesAll, Occurrence.bound_append, List.filterMap_append,
      s.unslotted_eq, Stmt.unslottedAll_eq ss]

end

theorem FunctionDef.failure?_lower (entry : String) (f : FunctionDef Ref) :
    failure? (f.lower entry) =
      ((Occurrence.bound (Stmt.occurrencesAll f.body)).findSome? Ref.free?).map Unslotted.mk := by
  rw [FunctionDef.lower, failure?_bind_pure, Stmt.failure?_lowerAll, Stmt.unslottedAll_eq,
    List.head?_filterMap]

/-- Declarations are not lowered because of the first that is not. -/
theorem Declaration.failure?_lowerAll_cons (entry : String) (d : Declaration Ref)
    (ds : List (Declaration Ref)) :
    failure? (Declaration.lowerAll entry (d :: ds)).value =
      (failure? (d.lower entry)).or (failure? (Declaration.lowerAll entry ds).value) := by
  rw [Declaration.lowerAll]
  cases d.lower entry with
  | error u => rfl
  | ok code =>
    cases hds : (Declaration.lowerAll entry ds).value with
    | error u => simp [hds, failure?, Except.map]
    | ok more => simp [hds, failure?, Except.map]

/-- A program is not lowered because of the first `let` in it that binds a name without a slot. -/
theorem Program.failure?_lower (entry : String) (p : Program Ref) :
    failure? (p.lower entry).value = (p.lets.findSome? Ref.free?).map Unslotted.mk := by
  obtain ⟨ds⟩ := p
  unfold Program.lower
  induction ds with
  | nil => rfl
  | cons d ds ih =>
    rw [Declaration.failure?_lowerAll_cons, ih]
    cases d with
    | load path => rfl
    | global name => rfl
    | define f =>
      have hlets : Program.lets ⟨.define f :: ds⟩ =
          Occurrence.bound (Stmt.occurrencesAll f.body) ++ Program.lets ⟨ds⟩ := rfl
      rw [hlets, List.findSome?_append, Option.map_or, ← f.failure?_lower entry]
      rfl

theorem Program.lower_eq_error_iff {entry : String} {p : Program Ref} {u : Unslotted} :
    (p.lower entry).value = .error u ↔ p.lets.findSome? Ref.free? = some u.name := by
  rw [← failure?_eq_some, p.failure?_lower]
  constructor
  · intro h
    obtain ⟨n, hn, rfl⟩ := Option.map_eq_some_iff.mp h
    exact hn
  · intro h
    rw [h]
    rfl

/-- An `if` without arms is lowered like its `else`, and the `let` in it comes before the other. -/
example : ((⟨[.define ⟨"f", [], [.loop .null [.declare (.slot 0) .null],
    .choose (.otherwise [.declare (.free "x") .null]), .declare (.free "y") .null]⟩]⟩ :
      Program Ref).lower "f").value = .error ⟨"x"⟩ := rfl

theorem Unslotted.message_inj {u v : Unslotted} (h : u.message = v.message) : u = v := by
  have hlist := congrArg String.toList h
  simp only [Unslotted.message, String.toList_append] at hlist
  have hname := List.append_cancel_left (List.append_cancel_right hlist)
  cases u
  cases v
  rw [Unslotted.mk.injEq]
  exact String.toList_inj.mp hname

/-! ### Cutting text -/

/-- Everywhere that the text of a source is cut because of a token there is something to cut. -/
structure Token.Cuts (source : List Char) (t : Token) : Prop where
  /-- The token is cut out of the source. -/
  text : slice? source t.start t.stop = some t.text
  /-- It begins where there is a position to give in an error. -/
  place : (locate? source t.start).isSome = true
  /-- It ends where the next token can be read. -/
  next : (read? source t.stop).isSome = true
  /-- The quotes of a string are cut off, and what is left is decoded. -/
  body : t.kind = .string → slice? t.text 1 (width t.text - 1) = some t.text.tail.dropLast

/-- All tokens of a source can be cut out. -/
theorem Lexed.cuts {source : List Char} {ts : List Token} (h : Lexed source 0 ts) :
    ∀ t ∈ ts, t.Cuts source := by
  intro t ht
  obtain ⟨n, -, hat⟩ := (h.follow ⟨[], source, rfl, rfl⟩).1 t ht
  obtain ⟨u, hu, -⟩ := readAt_of_boundary hat.boundaries.2
  constructor
  case text => exact slice?_of_spans hat.spans
  case place =>
    rw [locate?_of_boundary hat.boundaries.1]
    rfl
  case next =>
    rw [hu]
    rfl
  case body =>
    intro hk
    obtain ⟨ps, hps⟩ := exists_parts_of_read? hat.again hk
    rw [hps, slice?_quoted, List.tail_cons, List.dropLast_concat]

/-! ### Compiling -/

/-- A source has code or a syntax error. -/
theorem compile_ok_or_syntaxError (entry source : String) :
    (∃ code, (compile entry source).value = .ok code) ∨
      ∃ e, (compile entry source).value = .error (.syntaxError e) := by
  cases hp : (parse source).value with
  | error e => exact .inr ⟨e, compile_eq_syntaxError_iff.mpr hp⟩
  | ok p =>
    obtain ⟨code, hcode⟩ := p.lower_resolve entry
    exact .inl ⟨_, compile_eq_ok_iff.mpr ⟨p, code, hp, hcode, rfl⟩⟩

/-- An error gives the position of a token. -/
theorem exists_token_of_syntaxError {entry source : String} {e : SyntaxError} {ts : List Token}
    (hts : Lexed source.toList 0 ts)
    (h : (compile entry source).value = .error (.syntaxError e)) :
    ∃ t ∈ ts, locate? source.toList t.start = some e.position := by
  have hparse := parse_eq_error_iff.mp (compile_eq_syntaxError_iff.mp h)
  obtain ⟨f, hf, rfl⟩ := Option.map_eq_some_iff.mp hparse
  obtain ⟨us, hsplit, -⟩ := Parser.declarations_blames (Prod.ext rfl hf)
  obtain ⟨t, ht, hplace⟩ := (f.pointsAt_iff hsplit hts).mpr rfl
  exact ⟨t, List.mem_of_getElem? ht, hplace⟩

/-- (1) A tree is not lowered exactly if a `let` in it binds a name without a slot, and the failure
names the first of these. (2) What was resolved is always lowered. (3) So a source has code or a
syntax error; all its tokens can be cut out, and a syntax error gives the position of one of them.
-/
theorem lower_fails_at_first_unslotted :
    (∀ entry (p : Program Ref), (∃ u, (p.lower entry).value = .error u) ↔
      ∃ n, .free n ∈ p.lets) ∧
    (∀ entry (p : Program Ref) (n : String),
      (∃ u, (p.lower entry).value = .error u ∧
        u.message = "binding `" ++ n ++ "` was not assigned a slot") ↔
      p.lets.findSome? Ref.free? = some n) ∧
    (∀ entry (p : Program String), ∃ code, (p.resolve.value.lower entry).value = .ok code) ∧
    ∀ entry source,
      ((∃ code, (compile entry source).value = .ok code) ∨
        ∃ e, (compile entry source).value = .error (.syntaxError e)) ∧
      ∃ ts, Lexed source.toList 0 ts ∧ (∀ t ∈ ts, t.Cuts source.toList) ∧
        ∀ e, (compile entry source).value = .error (.syntaxError e) →
          ∃ t ∈ ts, locate? source.toList t.start = some e.position := by
  refine ⟨?_, ?_, fun entry p => p.lower_resolve entry, ?_⟩
  · intro entry p
    constructor
    · rintro ⟨u, hu⟩
      have hfirst := Program.lower_eq_error_iff.mp hu
      obtain ⟨r, hr, hfree⟩ := List.exists_of_findSome?_eq_some hfirst
      exact ⟨u.name, Ref.free?_eq_some.mp hfree ▸ hr⟩
    · rintro ⟨n, hn⟩
      have hsome : (p.lets.findSome? Ref.free?).isSome = true :=
        List.findSome?_isSome_iff.mpr ⟨_, hn, rfl⟩
      obtain ⟨m, hm⟩ := Option.isSome_iff_exists.mp hsome
      exact ⟨⟨m⟩, Program.lower_eq_error_iff.mpr hm⟩
  · intro entry p n
    constructor
    · rintro ⟨u, hu, hmessage⟩
      have hname : u = ⟨n⟩ := Unslotted.message_inj hmessage
      rw [hname] at hu
      exact Program.lower_eq_error_iff.mp hu
    · intro h
      exact ⟨⟨n⟩, Program.lower_eq_error_iff.mpr h, rfl⟩
  · intro entry source
    refine ⟨compile_ok_or_syntaxError entry source, _, lexed_start_iff.mpr rfl, ?_, ?_⟩
    · exact (lexed_start_iff.mpr rfl).cuts
    · exact fun e he => exists_token_of_syntaxError (lexed_start_iff.mpr rfl) he

end StackScript
