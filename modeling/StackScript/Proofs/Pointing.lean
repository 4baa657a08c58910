/-
# The token that an error points at

An error gives its place by line and column, and means the token that begins there. Every token
begins at a byte between two characters and after the token before it, the mark for the end of the
source being the last of them. Two such bytes never have the same line and column, because a
character that is passed moves the position to the right or to the next line. So an error points
at one token of the stream and at no other, and its number is how many tokens stand before those
that the fault keeps.

Key definitions: `Lexed`, `SyntaxError.PointsAt`.
Key theorems: `lexed_start_iff`, `Lexed.follow`, `position_inj`, `Fault.pointsAt_iff`.
-/
import StackScript.Proofs.Joined
import StackScript.Proofs.Tiling

namespace StackScript

/-! ### The whole stream -/

/-- The stream of a source from the byte `cursor` on, with the mark for its end as the last
token. -/
def Lexed (source : List Char) (cursor : Nat) (ts : List Token) : Prop :=
  ∃ us, Stream source cursor us ∧ ts = us ++ [.finish (width source)]

/-- The stream of a whole source is its tokens and the mark for its end. -/
theorem lexed_start_iff {source : List Char} {ts : List Token} :
    Lexed source 0 ts ↔ ts = tokens 0 source ++ [.finish (width source)] := by
  constructor
  · rintro ⟨us, hus, rfl⟩
    rw [stream_start_iff.mp hus]
  · rintro rfl
    exact ⟨_, stream_start_iff.mpr rfl, rfl⟩

/-- Each token is read at the cursor or after it, and they follow one another. -/
theorem Lexed.follow {source : List Char} {cursor : Nat} {ts : List Token}
    (h : Lexed source cursor ts) (hc : IsBoundary source cursor) :
    (∀ t ∈ ts, ∃ n, cursor ≤ n ∧ t.ReadAt source n) ∧
      ts.Pairwise fun t u => t.start < t.stop ∧ t.stop ≤ u.start := by
  obtain ⟨us, hs, rfl⟩ := h
  induction hs with
  | @finish cursor t hr hk =>
    rw [List.nil_append, ← read?_eq_finish hr hk]
    obtain ⟨u, hu, hat⟩ := readAt_of_boundary hc
    obtain rfl : t = u := Option.some.inj (hr.symm.trans hu)
    exact ⟨by simpa using ⟨cursor, Nat.le_refl _, hat⟩, List.pairwise_singleton _ _⟩
  | @token cursor t ts hr hk _ ih =>
    obtain ⟨u, hu, hat⟩ := readAt_of_boundary hc
    obtain rfl : t = u := Option.some.inj (hr.symm.trans hu)
    obtain ⟨hlater, hpairs⟩ := ih hat.boundaries.2
    have hstop : cursor ≤ t.stop := Nat.le_trans hat.order.1 hat.order.2.1
    constructor
    · intro v hv
      rcases List.mem_cons.mp hv with rfl | hv
      · exact ⟨cursor, Nat.le_refl _, hat⟩
      · obtain ⟨n, hn, hread⟩ := hlater v hv
        exact ⟨n, Nat.le_trans hstop hn, hread⟩
    · refine List.pairwise_cons.mpr ⟨?_, hpairs⟩
      intro v hv
      obtain ⟨n, hn, hread⟩ := hlater v hv
      exact ⟨hat.nonempty hk, Nat.le_trans hn hread.order.1⟩

/-- Tokens begin between characters, one after the other. -/
theorem Lexed.starts {source : List Char} {cursor : Nat} {ts : List Token}
    (h : Lexed source cursor ts) (hc : IsBoundary source cursor) :
    (∀ t ∈ ts, cursor ≤ t.start ∧ IsBoundary source t.start) ∧
      ts.Pairwise fun t u => t.start < u.start := by
  obtain ⟨hreads, hpairs⟩ := h.follow hc
  refine ⟨?_, hpairs.imp fun hlt => Nat.lt_of_lt_of_le hlt.1 hlt.2⟩
  intro t ht
  obtain ⟨n, hn, hat⟩ := hreads t ht
  exact ⟨Nat.le_trans hn hat.order.1, hat.boundaries.1⟩

/-! ### Positions tell bytes apart -/

/-- The position after a first part of a source. -/
theorem position_append (a b : List Char) :
    position (a ++ b) (width a) = a.foldl Position.after .start := by
  have hsplit := positionFrom_append b 0 .start a
  rw [Nat.add_zero] at hsplit
  rw [position, hsplit]
  cases b with
  | nil => rfl
  | cons c b => rw [positionFrom, if_pos c.utf8Size_pos]

theorem foldl_after_of_not_mem {a : List Char} (h : '\n' ∉ a) (p : Position) :
    a.foldl Position.after p = ⟨p.line, p.column + a.length⟩ := by
  induction a generalizing p with
  | nil => rfl
  | cons c a ih =>
    rw [List.mem_cons, not_or] at h
    rw [List.foldl_cons, ih h.2, Position.after, if_neg (Ne.symm h.1), List.length_cons]
    simp only [Nat.add_assoc, Nat.add_comm 1]

/-- To pass characters is to leave the position. -/
theorem eq_nil_of_foldl_after {a : List Char} {p : Position}
    (h : a.foldl Position.after p = p) : a = [] := by
  have hline := line_foldl_after p a
  rw [h] at hline
  have hnone : '\n' ∉ a := List.count_eq_zero.mp (by omega)
  have hcolumn := congrArg Position.column (foldl_after_of_not_mem hnone p)
  rw [h] at hcolumn
  exact List.length_eq_zero_iff.mp (by simpa using hcolumn)

/-- Bytes between characters have different positions. -/
theorem position_inj {source : List Char} {m n : Nat} (hm : IsBoundary source m)
    (hn : IsBoundary source n) (h : position source m = position source n) : m = n := by
  obtain ⟨a, b, rfl, rfl⟩ := hm
  obtain ⟨c, d, hsource, rfl⟩ := hn
  have hposition : a.foldl Position.after .start = c.foldl Position.after .start := by
    calc a.foldl Position.after .start
        = position (a ++ b) (width a) := (position_append a b).symm
      _ = position (c ++ d) (width c) := by rw [h, hsource]
      _ = c.foldl Position.after .start := position_append c d
  rcases List.append_eq_append_iff.mp hsource with ⟨x, rfl, -⟩ | ⟨x, rfl, -⟩
  · rw [List.foldl_append] at hposition
    rw [eq_nil_of_foldl_after hposition.symm, List.append_nil]
  · rw [List.foldl_append] at hposition
    rw [eq_nil_of_foldl_after hposition, List.append_nil]

theorem locate?_of_boundary {source : List Char} {n : Nat} (h : IsBoundary source n) :
    locate? source n = some (position source n) := by
  obtain ⟨a, b, rfl, rfl⟩ := h
  have hmin : min (width a) (width (a ++ b)) = width a := by
    rw [width_append]
    omega
  rw [locate?, hmin, cut?_append, Option.map_some]

/-! ### The blamed token -/

/-- A source cannot be read exactly if there is a fault in its tokens. -/
theorem parse_eq_error_iff {source : String} {e : SyntaxError} :
    (parse source).value = .error e ↔
      (Parser.declarations (tokens 0 source.toList)).2.map (·.toError source.toList) = some e := by
  rw [parse_value]
  cases Parser.declarations (tokens 0 source.toList) with
  | mk ds fault? => cases fault? <;> simp

/-- The error gives the place of the token number `k`. -/
def SyntaxError.PointsAt (e : SyntaxError) (source : List Char) (ts : List Token) (k : Nat) :
    Prop :=
  ∃ t, ts[k]? = some t ∧ locate? source t.start = some e.position

/-- The error of a fault points at the token to blame and at no other. -/
theorem Fault.pointsAt_iff {f : Fault} {source : List Char} {us : List Token}
    (h : tokens 0 source = us ++ f.blamed) {ts : List Token} (hts : Lexed source 0 ts) {k : Nat} :
    (f.toError source).PointsAt source ts k ↔ k = us.length := by
  obtain ⟨hstarts, hpairs⟩ := hts.starts ⟨[], source, rfl, rfl⟩
  obtain ⟨t, vs, hblamed, hstart⟩ := f.exists_blamed (width source)
  have hsplit : ts = us ++ t :: vs := by
    rw [lexed_start_iff.mp hts, h, List.append_assoc, hblamed]
  have ht : IsBoundary source t.start := (hstarts t (by simp [hsplit])).2
  have hposition : (f.toError source).position = position source t.start := by
    rw [hstart]
    rfl
  unfold SyntaxError.PointsAt
  rw [hposition]
  constructor
  · rintro ⟨u, hu, hlocate⟩
    have hmem : u ∈ ts := List.mem_of_getElem? hu
    rw [locate?_of_boundary (hstarts u hmem).2, Option.some.injEq] at hlocate
    have heq : u.start = t.start := position_inj (hstarts u hmem).2 ht hlocate
    -- tokens that begin at the same byte have the same number
    rw [hsplit] at hu hpairs
    obtain ⟨hk, rfl⟩ := List.getElem?_eq_some_iff.mp hu
    have hlen : us.length < (us ++ t :: vs).length := by simp
    have hget : (us ++ t :: vs)[us.length] = t := by simp
    rcases Nat.lt_trichotomy k us.length with hlt | rfl | hlt
    · have hbefore := List.pairwise_iff_getElem.mp hpairs k us.length hk hlen hlt
      rw [hget] at hbefore
      omega
    · rfl
    · have hafter := List.pairwise_iff_getElem.mp hpairs us.length k hlen hk hlt
      rw [hget] at hafter
      omega
  · rintro rfl
    exact ⟨t, by simp [hsplit], locate?_of_boundary ht⟩

end StackScript
