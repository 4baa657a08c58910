/-
# An error points at the first token that no program goes on with

The token that an error points at is the first that is wrong. The tokens before it stand at the
front of some program, so none of them could have been blamed. And no program begins with them and
the blamed token, so the error is not late either. If the source ends too early, the blamed token
is the mark for its end: there are programs that begin like this, but none that ends here.

That the readers blame the right token is shown on their side, where the program is a list of
symbols. Here it becomes a source: each symbol is written on a line of its own and read back as
itself (`symbols_spell`). The symbols that stood in a source can be written so because a token is
read again from its own text (`symbols_text`).

Key definitions: `Symbol.Spelled`, `spell`.
Key theorems: `symbols_spell`, `exists_program_of_viable`, `parse_error_points_at_first`.
-/
import StackScript.Proofs.ParserBlame
import StackScript.Proofs.Pointing

namespace StackScript

open Grammar

/-! ### Symbols read from their own text -/

theorem kind_ne_finish_of_mem_tokens {n : Nat} {cs : List Char} {t : Token} (h : t ∈ tokens n cs) :
    t.kind ≠ .finish := by
  obtain ⟨as, c, ds, -, hsymbol⟩ := exists_lexeme_of_mem_tokens h
  have hkind : t.kind = (lexeme c ds).kind := congrArg Symbol.kind hsymbol
  rw [hkind]
  exact lexeme_kind_ne_finish c ds

/-- The text of a symbol is read as that symbol. -/
def Symbol.Spelled (s : Symbol) : Prop := symbols s.text = [s]

theorem spelled_of_mem_tokens {n : Nat} {cs : List Char} {t : Token} (ht : t ∈ tokens n cs) :
    t.symbol.Spelled := by
  obtain ⟨as, c, ds, hs, hsymbol⟩ := exists_lexeme_of_mem_tokens ht
  have htrivia : splitTrivia (c :: ds) = ([], c :: ds) := hs ▸ splitTrivia_rest as
  unfold Symbol.Spelled
  rw [hsymbol]
  exact symbols_text htrivia

theorem spelled_fill {k : Kind} (h : k ∈ fillers) : (fill k).Spelled := by
  have hall : ∀ k ∈ fillers, symbols (spelling k) = [fill k] := by decide +kernel
  exact hall k h

/-! ### Symbols written as a source -/

/-- The symbols, each on a line of its own. -/
def spell (w : List Symbol) : List Char := w.flatMap fun s => s.text ++ ['\n']

/-- The symbols of a text on the lines after another. -/
theorem symbols_join {a : List Char} (h : Valid (symbols a)) (b : List Char) :
    symbols (a ++ '\n' :: b) = symbols a ++ symbols b := by
  have hvalid : ∀ t ∈ tokens 0 a, t.kind ≠ .invalid := fun t ht =>
    h t.symbol (List.mem_map_of_mem ht)
  rw [symbols, tokens_join b 0 a hvalid, List.map_append, map_symbol_tokens (0 + width a + 1) 0 b]
  rfl

/-- What is written is read back. -/
theorem symbols_spell {w : List Symbol} (hw : ∀ s ∈ w, s.Spelled) (hvalid : Valid w) :
    symbols (spell w) = w := by
  induction w with
  | nil => exact symbols_nil
  | cons s w ih =>
    have hs : symbols s.text = [s] := hw s List.mem_cons_self
    obtain ⟨hkind, hrest⟩ := valid_cons.mp hvalid
    have hfirst : Valid (symbols s.text) := by
      rw [hs]
      exact valid_cons.mpr ⟨hkind, valid_nil⟩
    have hspell : spell (s :: w) = s.text ++ '\n' :: spell w := by simp [spell]
    rw [hspell, symbols_join hfirst, hs, ih (fun u hu => hw u (List.mem_cons_of_mem s hu)) hrest]
    rfl

/-! ### Programs -/

/-- A program is read exactly if the grammar derives it from the symbols. -/
theorem parse_eq_ok_iff_decls {source : String} {p : Program String} :
    (parse source).value = .ok p ↔ Decls (symbols source.toList) p.declarations := by
  rw [parse_eq_ok_iff]
  constructor
  · exact Parser.declarations_sound _
  · exact fun h => Parser.declarations_complete h rfl

/-- Tokens of a source that begin declarations stand at the front of some program. -/
theorem exists_program_of_viable {us : List Token} {n : Nat} {cs : List Char}
    (hus : us ⊆ tokens n cs) (h : Viable (Word Decls) (us.map Token.symbol)) :
    ∃ (other : String) (p : Program String), (parse other).value = .ok p ∧
      us.map Token.symbol <+: symbols other.toList := by
  obtain ⟨ks, hks, ds, hds⟩ := h
  have hvalid := hds.valid
  have hspelled : ∀ s ∈ us.map Token.symbol ++ ks.map fill, s.Spelled := by
    intro s hs
    rcases List.mem_append.mp hs with ht | hk
    · obtain ⟨t, ht', rfl⟩ := List.mem_map.mp ht
      exact spelled_of_mem_tokens (hus ht')
    · obtain ⟨k, hk', rfl⟩ := List.mem_map.mp hk
      exact spelled_fill (hks k hk')
  have hsymbols := symbols_spell hspelled hvalid
  refine ⟨String.ofList (spell (us.map Token.symbol ++ ks.map fill)), ⟨ds⟩, ?_, ?_⟩
  · rw [parse_eq_ok_iff_decls, String.toList_ofList, hsymbols]
    exact hds
  · rw [String.toList_ofList, hsymbols]
    exact List.prefix_append _ _

/-- No program begins with tokens after which reading fails whatever comes. -/
theorem parse_ne_ok_of_prefix {us : List Token} {t : Token}
    (h : ∀ rest, (Parser.declarations (us ++ t :: rest)).2.isSome = true) {other : String}
    (hother : us.map Token.symbol ++ [t.symbol] <+: symbols other.toList) (p : Program String) :
    (parse other).value ≠ .ok p := by
  intro hp
  obtain ⟨w, hw⟩ := hother
  -- the program's own tokens after those, moved to stand after the blamed one
  have hrest : (us ++ t :: w.map fun s => ⟨s.kind, s.text, 0⟩).map Token.symbol =
      symbols other.toList := by
    rw [← hw]
    simp [Token.symbol, Function.comp_def]
  have hread := Parser.declarations_complete (parse_eq_ok_iff_decls.mp hp) hrest
  have hfault := h (w.map fun s => ⟨s.kind, s.text, 0⟩)
  rw [hread] at hfault
  cases hfault

/-- How a stream begins: with symbols of its source, or with all of them and the mark for the
end. -/
theorem Lexed.symbols_of_take {source : List Char} {ts : List Token} (h : Lexed source 0 ts)
    {n : Nat} {w : List Symbol} {s : Symbol} (hs : (ts.take n).map Token.symbol = w ++ [s]) :
    s.kind ≠ .finish ∧ w ++ [s] <+: symbols source ∨ s.kind = .finish ∧ symbols source = w := by
  have hstream : ts.map Token.symbol = symbols source ++ [⟨.finish, []⟩] := by
    rw [lexed_start_iff.mp h, List.map_append]
    rfl
  have hprefix : w ++ [s] <+: symbols source ++ [⟨.finish, []⟩] := by
    rw [← hstream, ← hs]
    exact (List.take_prefix n ts).map Token.symbol
  rcases List.prefix_concat_iff.mp hprefix with heq | hinside
  · obtain ⟨rfl, hmark⟩ := List.append_inj' heq rfl
    obtain rfl := List.singleton_inj.mp hmark
    exact .inr ⟨rfl, rfl⟩
  · refine .inl ⟨?_, hinside⟩
    obtain ⟨t, ht, rfl⟩ := List.mem_map.mp (hinside.subset (by simp : s ∈ w ++ [s]))
    exact kind_ne_finish_of_mem_tokens ht

/-- A source that agrees with one that cannot be read, through the token to blame, is no program. -/
theorem parse_ne_ok_of_take {source : List Char} {ds : List (Declaration String)} {f : Fault}
    (hread : Parser.declarations (tokens 0 source) = (ds, some f)) {us : List Token}
    (hsplit : tokens 0 source = us ++ f.blamed)
    (hdoom : ∀ t ∈ f.blamed.head?, ∀ rest,
      (Parser.declarations (us ++ t :: rest)).2.isSome = true)
    {t : Token} {rest : List Token} (hblamed : f.blamed ++ [.finish (width source)] = t :: rest)
    {other : String} {vs : List Token} (hvs : Lexed other.toList 0 vs) {n : Nat}
    (hsame : (vs.take n).map Token.symbol = us.map Token.symbol ++ [t.symbol])
    (p : Program String) : (parse other).value ≠ .ok p := by
  cases hb : f.blamed with
  | nil =>
    rw [hb] at hblamed
    obtain rfl : .finish (width source) = t := (List.cons.inj hblamed).1
    rcases hvs.symbols_of_take hsame with ⟨hk, -⟩ | ⟨-, hsymbols⟩
    · exact absurd rfl hk
    · -- the other source has the same symbols and no more, and those were not read to their end
      intro hp
      have hds := parse_eq_ok_iff_decls.mp hp
      rw [hsymbols] at hds
      rw [hsplit, hb, List.append_nil, Parser.declarations_complete hds rfl] at hread
      cases (Prod.mk.inj hread).2
  | cons u more =>
    rw [hb] at hblamed
    obtain rfl : u = t := (List.cons.inj hblamed).1
    rcases hvs.symbols_of_take hsame with ⟨-, hprefix⟩ | ⟨hk, -⟩
    · exact parse_ne_ok_of_prefix (hdoom u (by simp [hb])) hprefix p
    · have hu : u ∈ tokens 0 source := by simp [hsplit, hb]
      exact absurd hk (kind_ne_finish_of_mem_tokens hu)

/-- If a source cannot be read, the error points at a token of its stream such that the tokens
before it begin a program, and with it they begin none. -/
theorem parse_error_points_at_first {source : String} {e : SyntaxError}
    (h : (parse source).value = .error e) :
    ∃ ts k, Lexed source.toList 0 ts ∧ e.PointsAt source.toList ts k ∧
      (∃ (other : String) (us : List Token) (p : Program String), Lexed other.toList 0 us ∧
        (us.take k).map Token.symbol = (ts.take k).map Token.symbol ∧
        (parse other).value = .ok p) ∧
      ∀ (other : String) (us : List Token) (p : Program String), Lexed other.toList 0 us →
        (us.take (k + 1)).map Token.symbol = (ts.take (k + 1)).map Token.symbol →
        (parse other).value ≠ .ok p := by
  obtain ⟨f, hf, rfl⟩ := Option.map_eq_some_iff.mp (parse_eq_error_iff.mp h)
  have hread : Parser.declarations (tokens 0 source.toList) = (_, some f) := Prod.ext rfl hf
  obtain ⟨us, hsplit, hviable, hdoom⟩ := Parser.declarations_blames hread
  obtain ⟨t, rest, hblamed, -⟩ := f.exists_blamed (width source.toList)
  have hts : Lexed source.toList 0 (us ++ t :: rest) := by
    rw [lexed_start_iff, hsplit, List.append_assoc, hblamed]
  refine ⟨us ++ t :: rest, us.length, hts, ?_, ?_, ?_⟩
  · exact (f.pointsAt_iff hsplit hts).mpr rfl
  · have hsub : us ⊆ tokens 0 source.toList := by
      rw [hsplit]
      exact List.subset_append_left us f.blamed
    obtain ⟨other, p, hp, w, hw⟩ := exists_program_of_viable hsub hviable
    have htokens : (tokens 0 other.toList).map Token.symbol = us.map Token.symbol ++ w := hw.symm
    refine ⟨other, _, p, lexed_start_iff.mpr rfl, ?_, hp⟩
    simp [List.map_take, htokens]
  · intro other vs p hvs hsame
    have hfront : (us ++ t :: rest).take (us.length + 1) = us ++ [t] :=
      List.take_length_add_append 1
    rw [hfront, List.map_append, List.map_singleton] at hsame
    exact parse_ne_ok_of_take hread hsplit hdoom hblamed hvs hsame p

/-- The number is well formed and too large. It is the seventh token, and the six before it can go
on with a number that is not. -/
theorem parse_error_points_at_overflow :
    ∃ ts k, Lexed "function f() \x7b do 99999999999999999999; \x7d".toList 0 ts ∧
      SyntaxError.PointsAt ⟨.numberOverflow, ⟨1, 19⟩⟩
        "function f() \x7b do 99999999999999999999; \x7d".toList ts k ∧
      (∃ (other : String) (us : List Token) (p : Program String), Lexed other.toList 0 us ∧
        (us.take k).map Token.symbol = (ts.take k).map Token.symbol ∧
        (parse other).value = .ok p) ∧
      ∀ (other : String) (us : List Token) (p : Program String), Lexed other.toList 0 us →
        (us.take (k + 1)).map Token.symbol = (ts.take (k + 1)).map Token.symbol →
        (parse other).value ≠ .ok p :=
  parse_error_points_at_first (parse_eq_error_iff.mpr (by decide +kernel))

end StackScript
