/-
# Reading does not depend on layout

Two sources that have the same symbols in the same order are read alike, whatever blanks, comments
and line ends stand between them. Both are the same program, or both cannot be read, for the same
cause and because of the token with the same number. What is reported on the way is the same too.

The readers do the same on tokens that have the same symbols. What differs is where the tokens
stand, and that shows only in the position of an error. Each position means one token of its own
stream, and as many tokens stand before it in the one stream as in the other.

Key theorems: `forall₂_tokens`, `Fault.Related.pointsAt`, `parse_layout_free`.
-/
import StackScript.Proofs.ParserBlame
import StackScript.Proofs.Pointing

namespace StackScript

/-- What is reported while a source is read, by its tokens. -/
theorem parse_log (source : String) : (parse source).log =
    (Parser.declarations (tokens 0 source.toList)).1.flatMap Declaration.readEvents ++
      if (Parser.declarations (tokens 0 source.toList)).2.isNone then
        [.programParsed (Parser.declarations (tokens 0 source.toList)).1.length]
      else [] := by
  unfold parse
  cases Parser.declarations (tokens 0 source.toList) with
  | mk ds fault? => cases fault? <;> simp [Program.ofRead]

/-- The tokens of sources whose streams agree up to places. -/
theorem forall₂_tokens {a b : List Char} {ts us : List Token} (ha : Lexed a 0 ts)
    (hb : Lexed b 0 us) (h : ts.map Token.symbol = us.map Token.symbol) :
    List.Forall₂ (fun t u => t.symbol = u.symbol) (tokens 0 a) (tokens 0 b) := by
  have hsymbols : (tokens 0 a).map Token.symbol = (tokens 0 b).map Token.symbol := by
    rw [lexed_start_iff.mp ha, lexed_start_iff.mp hb, List.map_append, List.map_append] at h
    exact List.append_cancel_right h
  rwa [← List.forall₂_eq_eq_eq, List.forall₂_map_left_iff, List.forall₂_map_right_iff] at hsymbols

/-- Related faults point at tokens with the same number. -/
theorem Fault.Related.pointsAt {R : Token → Token → Prop} {f g : Fault} (h : f.Related R g)
    {a b : List Char} {ts us : List Token} (ha : Lexed a 0 ts) (hb : Lexed b 0 us)
    (hlen : (tokens 0 a).length = (tokens 0 b).length) {vs ws : List Token}
    (hf : tokens 0 a = vs ++ f.blamed) (hg : tokens 0 b = ws ++ g.blamed) :
    ∃ k, ∀ j, ((f.toError a).PointsAt a ts j ↔ j = k) ∧
      ((g.toError b).PointsAt b us j ↔ j = k) := by
  have hblamed : f.blamed.length = g.blamed.length := h.blamed.length_eq
  have hbefore : vs.length = ws.length := by
    rw [hf, hg, List.length_append, List.length_append] at hlen
    omega
  refine ⟨vs.length, ?_⟩
  intro j
  constructor
  · exact f.pointsAt_iff hf ha
  · rw [hbefore]
    exact g.pointsAt_iff hg hb

/-- Sources whose streams agree in kinds and texts are read alike: what is reported is the same,
and so is the program, or else the cause of the error and the number of the token that it points
at. -/
theorem parse_layout_free {a b : String} {ts us : List Token} (ha : Lexed a.toList 0 ts)
    (hb : Lexed b.toList 0 us) (h : ts.map Token.symbol = us.map Token.symbol) :
    (parse a).log = (parse b).log ∧
      ((∃ p, (parse a).value = .ok p ∧ (parse b).value = .ok p) ∨
        ∃ e e', (parse a).value = .error e ∧ (parse b).value = .error e' ∧ e.cause = e'.cause ∧
          ∃ k, ∀ j, (e.PointsAt a.toList ts j ↔ j = k) ∧ (e'.PointsAt b.toList us j ↔ j = k)) := by
  have hrel := forall₂_tokens ha hb h
  obtain ⟨hds, hfault⟩ := Parser.declarations_related (fun _ _ hs => hs) hrel
  generalize hf : (Parser.declarations (tokens 0 a.toList)).2 = f? at hfault
  generalize hg : (Parser.declarations (tokens 0 b.toList)).2 = g? at hfault
  cases hfault with
  | none =>
    refine ⟨by rw [parse_log, parse_log, hds, hf, hg], .inl ?_⟩
    refine ⟨⟨(Parser.declarations (tokens 0 b.toList)).1⟩, ?_, ?_⟩
    · exact parse_eq_ok_iff.mpr (Prod.ext hds hf)
    · exact parse_eq_ok_iff.mpr (Prod.ext rfl hg)
  | @some f g hfg =>
    refine ⟨by rw [parse_log, parse_log, hds, hf, hg]; rfl, .inr ?_⟩
    obtain ⟨vs, hvs, -⟩ := Parser.declarations_blames (Prod.ext rfl hf)
    obtain ⟨ws, hws, -⟩ := Parser.declarations_blames (Prod.ext rfl hg)
    refine ⟨f.toError a.toList, g.toError b.toList, ?_, ?_, hfg.cause, ?_⟩
    · exact parse_eq_error_iff.mpr (by rw [hf]; rfl)
    · exact parse_eq_error_iff.mpr (by rw [hg]; rfl)
    · exact hfg.pointsAt ha hb hrel.length_eq hvs hws

/-- Both sources end after a second `global`. Between the tokens of the second stand line ends and a
comment with a letter of two bytes. -/
theorem parse_layout_free_comment :
    (parse "global a;global").log = (parse "global // é\n a ;\nglobal").log ∧
      ((∃ p, (parse "global a;global").value = .ok p ∧
          (parse "global // é\n a ;\nglobal").value = .ok p) ∨
        ∃ e e', (parse "global a;global").value = .error e ∧
          (parse "global // é\n a ;\nglobal").value = .error e' ∧ e.cause = e'.cause ∧
          ∃ k, ∀ j,
            (e.PointsAt "global a;global".toList
              (tokens 0 "global a;global".toList ++ [.finish 15]) j ↔ j = k) ∧
            (e'.PointsAt "global // é\n a ;\nglobal".toList
              (tokens 0 "global // é\n a ;\nglobal".toList ++ [.finish 24]) j ↔ j = k)) := by
  have ha : Lexed "global a;global".toList 0
      (tokens 0 "global a;global".toList ++ [.finish 15]) :=
    lexed_start_iff.mpr (by decide +kernel)
  have hb : Lexed "global // é\n a ;\nglobal".toList 0
      (tokens 0 "global // é\n a ;\nglobal".toList ++ [.finish 24]) :=
    lexed_start_iff.mpr (by decide +kernel)
  exact parse_layout_free ha hb (by decide +kernel)

end StackScript
