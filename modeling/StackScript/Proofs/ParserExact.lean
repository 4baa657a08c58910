/-
# The parser accepts exactly the grammar

A source is read as a program exactly when none of its tokens is invalid and the grammar derives
the program from them. The one direction is soundness and the other completeness of the readers,
for the tokens of the whole source. So the grammar gives a sequence of symbols at most one
program: the parser, run on tokens with these symbols, finds all of them, and it is a function.

Key theorems: `derives_unique`, `parse_ok_iff_derives`.
-/
import StackScript.Proofs.ParserComplete
import StackScript.Proofs.TokenStream
import StackScript.Source

namespace StackScript

open Grammar

/-- What a source is read as, by its tokens. -/
theorem parse_value (source : String) : (parse source).value =
    match Parser.declarations (tokens 0 source.toList) with
    | (ds, none) => .ok ⟨ds⟩
    | (_, some f) => .error (f.toError source.toList) := by
  unfold parse
  cases Parser.declarations (tokens 0 source.toList) with
  | mk ds fault? => cases fault? <;> rfl

/-- A program is read exactly if the tokens are its declarations. -/
theorem parse_eq_ok_iff {source : String} {p : Program String} :
    (parse source).value = .ok p ↔
      Parser.declarations (tokens 0 source.toList) = (p.declarations, none) := by
  rw [parse_value]
  cases Parser.declarations (tokens 0 source.toList) with
  | mk ds fault? =>
    cases fault? with
    | none =>
      obtain ⟨es⟩ := p
      simp
    | some f => simp

/-- Symbols are at most one program. -/
theorem derives_unique {w : List Symbol} {p q : Program String} (hp : Derives w p)
    (hq : Derives w q) : p = q := by
  have hw : (w.map fun s => (⟨s.kind, s.text, 0⟩ : Token)).map Token.symbol = w := by
    simp [Token.symbol, Function.comp_def]
  have h := (Parser.declarations_complete hp hw).symm.trans (Parser.declarations_complete hq hw)
  obtain ⟨⟩ := p
  obtain ⟨⟩ := q
  exact congrArg Program.mk (Prod.mk.inj h).1

/-- A source is read as a program exactly when the grammar derives the program from its tokens and
none of them is invalid, and the grammar derives at most one program from any symbols. -/
theorem parse_ok_iff_derives :
    (∀ (source : String) (p : Program String), (parse source).value = .ok p ↔
      ∃ ts, Stream source.toList 0 ts ∧ (∀ t ∈ ts, t.kind ≠ .invalid) ∧
        Derives (ts.map Token.symbol) p) ∧
    ∀ (w : List Symbol) (p q : Program String), Derives w p → Derives w q → p = q := by
  refine ⟨fun source p => ?_, fun w p q => derives_unique⟩
  rw [parse_eq_ok_iff]
  constructor
  · intro h
    have hd := Parser.declarations_sound _ h
    refine ⟨_, stream_start_iff.mpr rfl, fun t ht => ?_, hd⟩
    exact hd.valid t.symbol (List.mem_map_of_mem ht)
  · rintro ⟨ts, hs, -, hd⟩
    rw [stream_start_iff] at hs
    exact Parser.declarations_complete hd (by rw [hs])

end StackScript
