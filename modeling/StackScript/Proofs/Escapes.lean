/-
# Escapes in strings

The lexer finds the end of a string before anyone looks at its escapes. It knows of an escape only
that the character after a backslash does not count, so what stands between the quotes is a list of
parts: a character that is no quote and no backslash, or a backslash and the character after it. No
text is two such lists, and none of them ends in half an escape (`lexeme_string`,
`written_injective`).

The decoder takes more than one part at a time where an escape gives a code point, by the two
characters after its own two. It stays in step with the lexer all the same. Where the code point is
given as it should be, those two are digits and so parts of their own, and in any other case the
decoder goes no further (`decode_stands`, `decode_unsound`). So it comes to the end exactly if every
escape is sound, with the characters that the parts stand for in their order, and it fails because
of the first escape that is not (`decode_written`).

Key definitions: `Literal.Part`, `Literal.SoundEscape`, `Literal.Decodes`, `Literal.FirstUnsound`.
Key theorems: `Literal.written_injective`, `lexeme_string`, `Literal.decode_written`,
`string_token_decodes`.
-/
import StackScript.Proofs.LineTable
import StackScript.Proofs.ParserBlame

namespace StackScript

namespace Literal

/-! ### Parts -/

/-- A part of what stands between the quotes of a string. -/
inductive Part where
  /-- A character that stands for itself. -/
  | plain (c : Char) (h : c ≠ '\\' ∧ c ≠ '"')
  /-- A backslash and the character after it. -/
  | escape (c : Char)

/-- How a part is written. -/
def Part.text : Part → List Char
  | plain c _ => [c]
  | escape c => ['\\', c]

/-- How parts are written one after the other. -/
def written (ps : List Part) : List Char := ps.flatMap Part.text

@[simp] theorem written_nil : written [] = [] := rfl

@[simp] theorem written_plain (c : Char) (h : c ≠ '\\' ∧ c ≠ '"') (ps : List Part) :
    written (.plain c h :: ps) = c :: written ps := rfl

@[simp] theorem written_escape (c : Char) (ps : List Part) :
    written (.escape c :: ps) = '\\' :: c :: written ps := rfl

/-- A character that is no backslash begins a part of its own. -/
theorem exists_plain_of_written {ps : List Part} {c : Char} {cs : List Char}
    (h : written ps = c :: cs) (hc : c ≠ '\\') :
    ∃ hplain qs, ps = .plain c hplain :: qs ∧ written qs = cs := by
  cases ps with
  | nil => cases h
  | cons p ps =>
    cases p with
    | plain d hd =>
      obtain ⟨rfl, hrest⟩ := List.cons.inj h
      exact ⟨hd, ps, rfl, hrest⟩
    | escape d => exact absurd (List.cons.inj h).1.symm hc

/-- No text is made of parts in two ways. -/
theorem written_injective {ps qs : List Part} (h : written ps = written qs) : ps = qs := by
  induction ps generalizing qs with
  | nil =>
    cases qs with
    | nil => rfl
    | cons q qs => cases q <;> cases h
  | cons p ps ih =>
    cases p with
    | plain c hc =>
      obtain ⟨_, rs, rfl, hrest⟩ := exists_plain_of_written h.symm hc.1
      rw [ih hrest.symm]
    | escape c =>
      cases qs with
      | nil => cases h
      | cons q qs =>
        cases q with
        | plain d hd => exact absurd (List.cons.inj h).1.symm hd.1
        | escape d =>
          simp only [written_escape, List.cons.injEq, true_and] at h
          obtain ⟨rfl, hrest⟩ := h
          rw [ih hrest]

/-! ### What the parts stand for -/

/-- A backslash, `c` and then these parts begin with an escape that means something: `c` goes with a
backslash, or is an `x` and two digits come next, for a character of ASCII. -/
def SoundEscape (c : Char) (ps : List Part) : Prop :=
  c ∈ shortEscapes.map Prod.fst ∨
    c = 'x' ∧ ∃ a b more m n, written ps = a :: b :: more ∧ HexDigit a m ∧ HexDigit b n ∧
      16 * m + n ≤ 0x7f

/-- Every escape means something. -/
def AllSound : List Part → Prop
  | [] => True
  | .plain _ _ :: ps => AllSound ps
  | .escape c :: ps => SoundEscape c ps ∧ AllSound ps

/-- The first escape that means nothing is a backslash and `c`. -/
inductive FirstUnsound : List Part → Char → Prop
  | here {c ps} : ¬ SoundEscape c ps → FirstUnsound (.escape c :: ps) c
  | plain {c h ps d} : FirstUnsound ps d → FirstUnsound (.plain c h :: ps) d
  | escape {c ps d} : SoundEscape c ps → FirstUnsound ps d → FirstUnsound (.escape c :: ps) d

/-- Why a string with this escape cannot be read. -/
def unsoundCause (c : Char) : Cause := if c = 'x' then .invalidHexEscape else .invalidEscape

/-- The parts stand for one character. -/
inductive Stands : List Part → Char → Prop
  | plain {c h} : Stands [.plain c h] c
  | short {c d} : (c, d) ∈ shortEscapes → Stands [.escape c] d
  | code {a b ha hb m n d} : HexDigit a m → HexDigit b n → 16 * m + n ≤ 0x7f →
      d.toNat = 16 * m + n → Stands [.escape 'x', .plain a ha, .plain b hb] d

/-- The parts stand for the characters, in the same order. -/
inductive Decodes : List Part → List Char → Prop
  | nil : Decodes [] []
  | cons {group d ps out} : Stands group d → Decodes ps out → Decodes (group ++ ps) (d :: out)

/-! ### Single escapes -/

/-- A digit is a part of its own. -/
theorem HexDigit.ne_backslash {c : Char} {v : Nat} (h : HexDigit c v) : c ≠ '\\' := by
  rintro rfl
  have hnone : hexValue? '\\' = none := by decide
  rw [hexValue?_eq_some_iff.mpr h] at hnone
  cases hnone

/-- Parts that stand for a character are a piece. -/
theorem Stands.piece {group : List Part} {d : Char} (h : Stands group d) :
    Piece (written group) d := by
  cases h with
  | @plain _ hc => exact .plain hc.1
  | short hd => exact .short hd
  | code ha hb hle hd => exact .code ha hb hle hd

/-- Parts that stand for a character are decoded to it, whatever follows. -/
theorem decode_stands {group : List Part} {d : Char} (h : Stands group d) (ps : List Part) :
    decode (written (group ++ ps)) = (decode (written ps)).map (d :: ·) := by
  rw [written, List.flatMap_append]
  exact h.piece.decode_append (written ps)

/-- An escape that means nothing stops the decoder. -/
theorem decode_unsound {c : Char} {ps : List Part} (h : ¬ SoundEscape c ps) :
    decode (written (.escape c :: ps)) = .error (unsoundCause c) := by
  rw [SoundEscape, not_or] at h
  obtain ⟨hshort, hcode⟩ := h
  rw [written_escape]
  by_cases hx : c = 'x'
  · subst hx
    rcases hps : written ps with _ | ⟨a, _ | ⟨b, more⟩⟩
    · rfl
    · rfl
    · have hnone : ascii? a b = none := by
        refine Option.eq_none_iff_forall_ne_some.mpr ?_
        intro d hd
        obtain ⟨m, n, ha, hb, hle, -⟩ := ascii?_eq_some_iff.mp hd
        exact hcode ⟨rfl, a, b, more, m, n, hps, ha, hb, hle⟩
      simp [decode, hnone, unsoundCause]
  · have hnone : escaped? c = none := by
      refine Option.eq_none_iff_forall_ne_some.mpr ?_
      intro d hd
      exact hshort (List.mem_map.mpr ⟨_, escaped?_eq_some_iff.mp hd, rfl⟩)
    rw [unsoundCause, if_neg hx, decode]
    · rw [hnone]
    · exact fun _ _ _ hc => absurd hc hx
    · exact fun hc => absurd hc hx

/-! ### All parts -/

theorem Stands.length_pos {group : List Part} {d : Char} (h : Stands group d) :
    0 < group.length := by
  cases h <;> simp

/-- An escape that means something begins parts that stand for a character. -/
theorem SoundEscape.exists_stands {c : Char} {ps : List Part} (h : SoundEscape c ps) :
    ∃ group d rest, Stands group d ∧ .escape c :: ps = group ++ rest := by
  rcases h with hshort | ⟨rfl, a, b, more, m, n, hps, ha, hb, hle⟩
  · obtain ⟨⟨_, d⟩, hmem, rfl⟩ := List.mem_map.mp hshort
    exact ⟨_, d, ps, .short hmem, rfl⟩
  · obtain ⟨_, qs, rfl, hqs⟩ := exists_plain_of_written hps ha.ne_backslash
    obtain ⟨_, rest, rfl, -⟩ := exists_plain_of_written hqs hb.ne_backslash
    have hvalue := toNat_ofNat_ascii (16 * m + n) (by omega)
    exact ⟨_, Char.ofNat (16 * m + n), rest, .code ha hb hle hvalue, rfl⟩

/-- The escape that begins parts which stand for a character is sound, whatever follows them. -/
theorem Stands.soundEscape {c d : Char} {ps rest : List Part} (h : Stands (.escape c :: ps) d) :
    SoundEscape c (ps ++ rest) := by
  cases h with
  | short hmem => exact .inl (List.mem_map.mpr ⟨_, hmem, rfl⟩)
  | code ha hb hle hd => exact .inr ⟨rfl, _, _, _, _, _, rfl, ha, hb, hle⟩

theorem Stands.allSound {group : List Part} {d : Char} (h : Stands group d) {ps : List Part}
    (hps : AllSound ps) : AllSound (group ++ ps) := by
  cases h with
  | plain => exact hps
  | short hmem => exact ⟨(Stands.short hmem).soundEscape, hps⟩
  | code ha hb hle hd => exact ⟨(Stands.code ha hb hle hd).soundEscape, hps⟩

theorem Stands.firstUnsound {group : List Part} {d : Char} (h : Stands group d) {ps : List Part}
    {c : Char} (hps : FirstUnsound ps c) : FirstUnsound (group ++ ps) c := by
  cases h with
  | plain => exact .plain hps
  | short hmem => exact .escape (Stands.short hmem).soundEscape hps
  | code ha hb hle hd =>
    exact .escape (Stands.code ha hb hle hd).soundEscape (.plain (.plain hps))

theorem FirstUnsound.not_allSound {ps : List Part} {c : Char} (h : FirstUnsound ps c) :
    ¬ AllSound ps := by
  induction h with
  | here hc => exact fun hall => hc hall.1
  | plain _ ih => exact ih
  | escape _ _ ih => exact fun hall => ih hall.2

theorem FirstUnsound.unique {ps : List Part} {c d : Char} (h : FirstUnsound ps c)
    (h' : FirstUnsound ps d) : c = d := by
  induction h with
  | here hc =>
    cases h' with
    | here _ => rfl
    | escape hsound _ => exact absurd hsound hc
  | plain _ ih =>
    cases h' with
    | plain hps => exact ih hps
  | escape hsound _ ih =>
    cases h' with
    | here hc => exact absurd hsound hc
    | escape _ hps => exact ih hps

/-- How parts begin: with an escape that means nothing, or with some that stand for a character. -/
theorem parts_cases (ps : List Part) : ps = [] ∨
    (∃ group d rest, Stands group d ∧ ps = group ++ rest) ∨
    ∃ c rest, ¬ SoundEscape c rest ∧ ps = .escape c :: rest := by
  cases ps with
  | nil => exact .inl rfl
  | cons p ps =>
    cases p with
    | plain c hc => exact .inr (.inl ⟨[.plain c hc], c, ps, .plain, rfl⟩)
    | escape c =>
      by_cases hsound : SoundEscape c ps
      · exact .inr (.inl hsound.exists_stands)
      · exact .inr (.inr ⟨c, ps, hsound, rfl⟩)

/-- Parts are decoded to the characters that they stand for if every escape in them is sound, and
otherwise the decoder fails because of the first that is not. -/
theorem decode_written (ps : List Part) :
    (AllSound ps ∧ ∃ out, Decodes ps out ∧ decode (written ps) = .ok out) ∨
      ∃ c, FirstUnsound ps c ∧ decode (written ps) = .error (unsoundCause c) := by
  rcases parts_cases ps with rfl | ⟨group, d, rest, hgroup, rfl⟩ | ⟨c, rest, hc, rfl⟩
  · exact .inl ⟨trivial, [], .nil, rfl⟩
  · have hshorter : rest.length < (group ++ rest).length := by
      have hpos := hgroup.length_pos
      rw [List.length_append]
      omega
    have hstep := decode_stands hgroup rest
    rcases decode_written rest with ⟨hall, out, hout, hrun⟩ | ⟨c, hc, hrun⟩
    · exact .inl ⟨hgroup.allSound hall, d :: out, .cons hgroup hout, by rw [hstep, hrun]; rfl⟩
    · exact .inr ⟨c, hgroup.firstUnsound hc, by rw [hstep, hrun]; rfl⟩
  · exact .inr ⟨c, .here hc, decode_unsound hc⟩
termination_by ps.length

theorem Decodes.decode_eq {ps : List Part} {out : List Char} (h : Decodes ps out) :
    decode (written ps) = .ok out := by
  induction h with
  | nil => rfl
  | cons hgroup _ ih =>
    rw [decode_stands hgroup, ih]
    rfl

theorem decode_eq_ok_iff {ps : List Part} {out : List Char} :
    decode (written ps) = .ok out ↔ Decodes ps out := by
  refine ⟨?_, Decodes.decode_eq⟩
  intro h
  rcases decode_written ps with ⟨-, out', hout, hrun⟩ | ⟨c, -, hrun⟩
  · rw [hrun] at h
    rwa [← Except.ok.inj h]
  · rw [hrun] at h
    cases h

theorem decode_isOk_iff {ps : List Part} :
    (∃ out, decode (written ps) = .ok out) ↔ AllSound ps := by
  rcases decode_written ps with ⟨hall, out, -, hrun⟩ | ⟨c, hc, hrun⟩
  · exact iff_of_true ⟨out, hrun⟩ hall
  · refine iff_of_false ?_ hc.not_allSound
    rintro ⟨out, hout⟩
    rw [hrun] at hout
    cases hout

theorem decode_eq_error_iff {ps : List Part} {e : Cause} :
    decode (written ps) = .error e ↔ ∃ c, FirstUnsound ps c ∧ e = unsoundCause c := by
  rcases decode_written ps with ⟨hall, out, -, hrun⟩ | ⟨c, hc, hrun⟩
  · refine iff_of_false ?_ ?_
    · rw [hrun]
      exact fun h => by cases h
    · rintro ⟨c, hc, -⟩
      exact hc.not_allSound hall
  · rw [hrun, Except.error.injEq]
    constructor
    · rintro rfl
      exact ⟨c, hc, rfl⟩
    · rintro ⟨d, hd, rfl⟩
      rw [hc.unique hd]

theorem string_quoted (ps : List Part) :
    string ('"' :: (written ps ++ ['"'])) = (decode (written ps)).map String.ofList := by
  rw [string, List.tail_cons, List.dropLast_concat]

theorem string_eq_ok_iff {ps : List Part} {s : String} :
    string ('"' :: (written ps ++ ['"'])) = .ok s ↔ Decodes ps s.toList := by
  rw [string_quoted, ← decode_eq_ok_iff]
  cases decode (written ps) with
  | error e => simp [Except.map]
  | ok out => simp [Except.map, ← String.toList_inj]

theorem string_isOk_iff {ps : List Part} :
    (∃ s, string ('"' :: (written ps ++ ['"'])) = .ok s) ↔ AllSound ps := by
  rw [string_quoted, ← decode_isOk_iff]
  cases decode (written ps) with
  | error e => simp [Except.map]
  | ok out => simp [Except.map]

theorem string_eq_error_iff {ps : List Part} {e : Cause} :
    string ('"' :: (written ps ++ ['"'])) = .error e ↔
      ∃ c, FirstUnsound ps c ∧ e = unsoundCause c := by
  rw [string_quoted, ← decode_eq_error_iff]
  cases decode (written ps) with
  | error e => simp [Except.map]
  | ok out => simp [Except.map]

end Literal

/-! ### String tokens -/

open Literal

/-- A closed string is made of parts up to its quote. -/
theorem closeQuote?_parts {cs body rest : List Char} (h : closeQuote? cs = some (body, rest)) :
    ∃ ps, body = written ps ++ ['"'] := by
  fun_induction closeQuote? cs generalizing body rest with
  | case1 => simp at h
  | case2 cs =>
    simp only [Option.some.injEq, Prod.mk.injEq] at h
    exact ⟨[], h.1.symm⟩
  | case3 c cs ih =>
    simp only [Option.map_eq_some_iff, Prod.exists, Prod.mk.injEq] at h
    obtain ⟨b, r, hc, rfl, -⟩ := h
    obtain ⟨ps, rfl⟩ := ih hc
    exact ⟨.escape c :: ps, rfl⟩
  | case4 c cs hquote hescape ih =>
    simp only [Option.map_eq_some_iff, Prod.exists, Prod.mk.injEq] at h
    obtain ⟨b, r, hc, rfl, -⟩ := h
    obtain ⟨ps, rfl⟩ := ih hc
    have hbackslash : c ≠ '\\' := by
      rintro rfl
      cases cs with
      | nil => simp [closeQuote?] at hc
      | cons d ds => exact hescape d ds rfl rfl
    exact ⟨.plain c ⟨hbackslash, hquote⟩ :: ps, rfl⟩

/-- What is read as a string is parts between two quotes. -/
theorem lexeme_string {c : Char} {cs : List Char} (h : (lexeme c cs).kind = .string) :
    ∃ ps, (lexeme c cs).text = '"' :: (written ps ++ ['"']) := by
  rcases lexeme_cases c with ⟨-, hl⟩ | ⟨-, hl⟩ | hl | hl
  · rw [hl, stringLexeme] at h ⊢
    cases hc : closeQuote? cs with
    | none => simp [hc] at h
    | some p =>
      obtain ⟨ps, hps⟩ := closeQuote?_parts hc
      exact ⟨ps, congrArg _ hps⟩
  · have hreserved : ∀ p ∈ Kind.reserved, p.2 ≠ .string := by decide
    rw [hl] at h
    rcases ofWord_eq_or_mem (c :: cs.takeWhile isWordChar) with hw | hw
    · rw [hw] at h
      cases h
    · exact absurd h (hreserved _ hw)
  · simp [hl] at h
  · rw [hl] at h
    exact absurd h fun he => markLexeme_kind c cs (by simp [he])

/-- A string token is parts between two quotes. -/
theorem exists_parts_of_read? {source : List Char} {cursor : Nat} {t : Token}
    (h : read? source cursor = some t) (hk : t.kind = .string) :
    ∃ ps, t.text = '"' :: (written ps ++ ['"']) := by
  have hvalid : t.kind ≠ .finish := by
    rw [hk]
    decide
  obtain ⟨c, ds, -, -, hsymbol⟩ := exists_lexeme_of_read? h hvalid
  have hstring : (lexeme c ds).kind = .string := by
    rw [← hk]
    exact (congrArg Symbol.kind hsymbol).symm
  obtain ⟨ps, hps⟩ := lexeme_string hstring
  exact ⟨ps, (congrArg Symbol.text hsymbol).trans hps⟩

theorem slice?_of_spans {source text : List Char} {m n : Nat} (h : Spans source m n text) :
    slice? source m n = some text := by
  obtain ⟨a, b, rfl, rfl, rfl⟩ := h
  exact slice?_append a text b

/-- The text between two quotes. -/
theorem slice?_quoted (inner : List Char) :
    slice? ('"' :: (inner ++ ['"'])) 1 (width ('"' :: (inner ++ ['"'])) - 1) = some inner := by
  have hstop : width ('"' :: (inner ++ ['"'])) - 1 = width (['"'] ++ inner) := by
    have hquote : ('"').utf8Size = 1 := rfl
    rw [width_cons, width_append, width_append, width_cons, width_nil, hquote]
    omega
  rw [hstop]
  exact slice?_append ['"'] inner ['"']

/-- The error of a literal is at the place of its token. -/
theorem literal_stops_iff {α : Type} {value : Except Cause α} {t : Token} {rest : List Token}
    {source : List Char} (ht : IsBoundary source t.start) {e : SyntaxError} :
    (∃ f, (literal value t rest).Stops f ∧ f.toError source = e) ↔
      value = .error e.cause ∧ locate? source t.start = some e.position := by
  rw [locate?_of_boundary ht]
  cases value with
  | ok a => simp [literal]
  | error cause =>
    obtain ⟨cause', position'⟩ := e
    simp [literal, Fault.toError, Fault.offset]

/-- A string token can be cut out of its source, and what is between its quotes can be cut out of
that. It is made of parts, in one way only. It has a value exactly if every escape in it is sound,
and that is the characters that the parts stand for. If not, the error is at the first byte of the
token, and its cause is that of the first escape that is not sound. -/
theorem string_token_decodes {source : List Char} {cursor : Nat} {t : Token}
    (hread : read? source cursor = some t) (hkind : t.kind = .string) :
    slice? source t.start t.stop = some t.text ∧
    ∃ ps, (∀ qs, slice? t.text 1 (width t.text - 1) = some (written qs) ↔ qs = ps) ∧
      ∀ rest : List Token,
        ((∃ s, (literal (Literal.string t.text) t rest).Finds s rest) ↔ AllSound ps) ∧
        (∀ s, (literal (Literal.string t.text) t rest).Finds s rest ↔ Decodes ps s.toList) ∧
        ∀ e, (∃ f, (literal (Literal.string t.text) t rest).Stops f ∧ f.toError source = e) ↔
          ∃ c, FirstUnsound ps c ∧ e.cause = unsoundCause c ∧
            locate? source t.start = some e.position := by
  obtain ⟨ps, htext⟩ := exists_parts_of_read? hread hkind
  have hat := readAt_of_read? hread
  refine ⟨slice?_of_spans hat.spans, ps, ?_, ?_⟩
  · intro qs
    rw [htext, slice?_quoted, Option.some.injEq]
    exact ⟨fun h => (written_injective h).symm, fun h => by rw [h]⟩
  · intro rest
    simp only [literal_finds, and_true, htext]
    refine ⟨string_isOk_iff, fun s => string_eq_ok_iff, fun e => ?_⟩
    rw [literal_stops_iff hat.boundaries.1, string_eq_error_iff]
    constructor
    · rintro ⟨⟨d, hd, hcause⟩, hplace⟩
      exact ⟨d, hd, hcause, hplace⟩
    · rintro ⟨d, hd, hcause, hplace⟩
      exact ⟨⟨d, hd, hcause⟩, hplace⟩

/-- The first escape is a code point. The second means nothing, and comes before another that means
nothing either. -/
theorem string_token_decodes_unsound :
    read? "é \"\\x41\\q\\x\"".toList 2 = some ⟨.string, "\"\\x41\\q\\x\"".toList, 3⟩ ∧
    ∀ rest, ∃ f, (literal (Literal.string "\"\\x41\\q\\x\"".toList)
        ⟨.string, "\"\\x41\\q\\x\"".toList, 3⟩ rest).Stops f ∧
      f.toError "é \"\\x41\\q\\x\"".toList = ⟨.invalidEscape, ⟨1, 3⟩⟩ := by
  have hread : read? "é \"\\x41\\q\\x\"".toList 2 =
      some ⟨.string, "\"\\x41\\q\\x\"".toList, 3⟩ := by decide +kernel
  obtain ⟨-, ps, hps, hvalue⟩ := string_token_decodes hread rfl
  have hparts : [.escape 'x', .plain '4' (by decide), .plain '1' (by decide), .escape 'q',
      .escape 'x'] = ps := (hps _).mp (by decide +kernel)
  have hcode : SoundEscape 'x' [.plain '4' (by decide), .plain '1' (by decide), .escape 'q',
      .escape 'x'] :=
    .inr ⟨rfl, '4', '1', _, 4, 1, rfl, .inl (by decide), .inl (by decide), by decide⟩
  have hunknown : ¬ SoundEscape 'q' [.escape 'x'] := by
    rintro (hshort | ⟨hx, -⟩)
    · revert hshort
      decide
    · revert hx
      decide
  have hfirst : FirstUnsound ps 'q' := hparts ▸ .escape hcode (.plain (.plain (.here hunknown)))
  refine ⟨hread, fun rest => ((hvalue rest).2.2 _).mpr ⟨'q', hfirst, rfl, ?_⟩⟩
  decide +kernel

end StackScript
