/-
# Lines by a table

The position of a byte is what anyone would count: its line is one more than the newlines before
it, and its column is one more than the characters after the last of these newlines
(`foldl_after_start`). A character that is passed moves the position to the right or to the next
line, so that bytes further on have later positions.

A position can be found without passing all the characters before it. The bytes at which lines
begin are written down once, from the bytes of the source: a byte of a newline is never part of
another character. A search in this table gives the line, and only the characters of that line are
counted. The search tells the index of an entry, or the index at which a missing one would have to
be inserted; the line is then the one before. There always is one, because the first entry is zero,
and it is the last that begins at the byte or before it (`tableLine?_of_split`).

Key definitions: `lastLine`, `Position.Before`, `lineStarts`, `Searches`, `tableLocate?`.
Key theorems: `foldl_after_start`, `before_foldl_after`, `lineStarts_eq`, `tableLocate?_eq`,
`locate?_counts`.
-/
import Mathlib.Data.List.DropRight
import StackScript.Proofs.JsonText
import StackScript.Proofs.Pointing

namespace StackScript

/-! ### Counting -/

/-- The text through its last newline. -/
def wholeLines (a : List Char) : List Char := a.rdropWhile (· != '\n')

/-- The text after its last newline, or all of it. -/
def lastLine (a : List Char) : List Char := a.rtakeWhile (· != '\n')

theorem wholeLines_append_lastLine (a : List Char) : wholeLines a ++ lastLine a = a :=
  List.rdropWhile_append_rtakeWhile

theorem wholeLines_newline (a : List Char) : wholeLines (a ++ ['\n']) = a ++ ['\n'] :=
  List.rdropWhile_concat_neg _ _ _ (by simp)

theorem wholeLines_concat {c : Char} (h : c ≠ '\n') (a : List Char) :
    wholeLines (a ++ [c]) = wholeLines a :=
  List.rdropWhile_concat_pos _ _ _ (by simpa using h)

theorem lastLine_newline (a : List Char) : lastLine (a ++ ['\n']) = [] :=
  List.rtakeWhile_concat_neg _ _ _ (by simp)

theorem lastLine_concat {c : Char} (h : c ≠ '\n') (a : List Char) :
    lastLine (a ++ [c]) = lastLine a ++ [c] :=
  List.rtakeWhile_concat_pos _ _ _ (by simpa using h)

/-- The position after a text, by counting its newlines and the characters after the last one. -/
theorem foldl_after_start (a : List Char) :
    a.foldl Position.after .start = ⟨1 + a.count '\n', 1 + (lastLine a).length⟩ := by
  induction a using List.reverseRecOn with
  | nil => rfl
  | append_singleton a c ih =>
    rw [List.foldl_append, ih, List.foldl_cons, List.foldl_nil, Position.after, List.count_append]
    by_cases hc : c = '\n'
    · rw [if_pos hc, hc, lastLine_newline]
      rfl
    · have hcount : [c].count '\n' = 0 := List.count_eq_zero.mpr (by simpa using Ne.symm hc)
      rw [if_neg hc, lastLine_concat hc, hcount, List.length_append]
      rfl

/-- The first position is on an earlier line, or further left on the same one. -/
def Position.Before (p q : Position) : Prop :=
  p.line < q.line ∨ p.line = q.line ∧ p.column < q.column

theorem Position.Before.trans {p q r : Position} (h : p.Before q) (h' : q.Before r) :
    p.Before r := by
  unfold Position.Before at h h' ⊢
  omega

theorem Position.before_after (p : Position) (c : Char) : p.Before (p.after c) := by
  unfold Position.Before Position.after
  by_cases hc : c = '\n'
  · simp [hc]
  · simp [hc]

/-- To pass characters is to come to a later position. -/
theorem before_foldl_after {a : List Char} (h : a ≠ []) (p : Position) :
    p.Before (a.foldl Position.after p) := by
  induction a generalizing p with
  | nil => exact absurd rfl h
  | cons c a ih =>
    have hc := p.before_after c
    rw [List.foldl_cons]
    by_cases ha : a = []
    · rw [ha]
      exact hc
    · exact hc.trans (ih ha _)

theorem positionFrom_of_width_le (p : Position) : ∀ {cs : List Char} {n : Nat}, width cs ≤ n →
    positionFrom p cs n = cs.foldl Position.after p := by
  intro cs n h
  have hsplit := positionFrom_append [] (n - width cs) p cs
  rwa [List.append_nil, Nat.add_sub_cancel' h] at hsplit

/-- A byte past the end stands for the end. -/
theorem position_min (source : List Char) (offset : Nat) :
    position source (min offset (width source)) = position source offset := by
  by_cases h : offset ≤ width source
  · rw [Nat.min_eq_left h]
  · have hle : width source ≤ offset := by omega
    unfold position
    rw [Nat.min_eq_right hle, positionFrom_of_width_le _ hle,
      positionFrom_of_width_le _ (Nat.le_refl _)]

/-- Where a first part of the source ends. -/
theorem locate?_of_split {a b : List Char} {offset : Nat}
    (h : width a = min offset (width (a ++ b))) :
    locate? (a ++ b) offset = some ⟨1 + a.count '\n', 1 + (lastLine a).length⟩ := by
  rw [locate?, ← h, cut?_append, Option.map_some, ← position_min, ← h, position_append,
    foldl_after_start]

/-- Inside a character there is no position. -/
theorem locate?_eq_none_iff {source : List Char} {offset : Nat} :
    locate? source offset = none ↔ ¬ IsBoundary source (min offset (width source)) := by
  rw [locate?, Option.map_eq_none_iff, isBoundary_iff_cut?, Option.eq_none_iff_forall_ne_some,
    not_exists]

/-- Bytes further on have later positions. -/
theorem before_of_lt {source : List Char} {m n : Nat} (hm : IsBoundary source m)
    (hn : IsBoundary source n) (h : m < n) :
    (position source m).Before (position source n) := by
  obtain ⟨a, b, rfl, rfl⟩ := hm
  obtain ⟨c, d, hsource, rfl⟩ := hn
  rcases List.append_eq_append_iff.mp hsource with ⟨x, rfl, rfl⟩ | ⟨x, rfl, -⟩
  · have hx : x ≠ [] := by
      rintro rfl
      simp at h
    rw [position_append, hsource, position_append, List.foldl_append]
    exact before_foldl_after hx _
  · rw [width_append] at h
    omega

/-! ### The table -/

/-- The bytes at which lines begin: the first byte, and each byte after that of a newline. -/
def lineStarts (source : List Char) : List Nat :=
  0 :: ((utf8 source).zipIdx.filter fun p => p.1 == 10).map fun p => p.2 + 1

/-- The ends of the newlines in a text that stands at the byte `n`. -/
def newlineEnds (n : Nat) : List Char → List Nat
  | [] => []
  | c :: cs => if c = '\n' then (n + 1) :: newlineEnds (n + 1) cs
    else newlineEnds (n + c.utf8Size) cs

/-- Of all characters only the newline has its byte. -/
theorem newline_byte_not_mem {c : Char} (h : c ≠ '\n') : 10 ∉ utf8 [c] := by
  by_cases hc : c.toNat < 128
  · intro hmem
    rw [Json.utf8_ascii hc, List.mem_singleton] at hmem
    have hten : c.toNat = 10 := by
      rw [← Json.toNat_byte hc, ← hmem]
      rfl
    exact h (Char.toNat_inj.mp hten)
  · intro hmem
    have hlarge := Json.le_of_mem_utf8 (Nat.le_of_not_lt hc) hmem
    exact absurd hlarge (by decide)

/-- The newlines are found in the bytes. -/
theorem filter_zipIdx_utf8 (cs : List Char) : ∀ n : Nat,
    (((utf8 cs).zipIdx n).filter fun p => p.1 == 10).map (fun p => p.2 + 1) =
      newlineEnds n cs := by
  induction cs with
  | nil => exact fun n => rfl
  | cons c cs ih =>
    intro n
    have hsplit : utf8 (c :: cs) = utf8 [c] ++ utf8 cs := utf8_append [c] cs
    have hlength : (utf8 [c]).length = c.utf8Size := by simp
    rw [hsplit, List.zipIdx_append, List.filter_append, List.map_append, hlength, newlineEnds,
      ih]
    by_cases hc : c = '\n'
    · subst hc
      rfl
    · have hnone : (((utf8 [c]).zipIdx n).filter fun p => p.1 == 10) = [] := by
        rw [List.filter_eq_nil_iff]
        intro p hp hten
        have hbyte : p.1 = 10 := by simpa using hten
        exact newline_byte_not_mem hc (hbyte ▸ List.fst_mem_of_mem_zipIdx hp)
      rw [if_neg hc, hnone]
      rfl

theorem lineStarts_eq (source : List Char) : lineStarts source = 0 :: newlineEnds 0 source := by
  rw [lineStarts, filter_zipIdx_utf8]

theorem newlineEnds_append (b : List Char) : ∀ (n : Nat) (a : List Char),
    newlineEnds n (a ++ b) = newlineEnds n a ++ newlineEnds (n + width a) b
  | n, [] => rfl
  | n, c :: a => by
    rw [List.cons_append, newlineEnds, newlineEnds, width_cons]
    by_cases hc : c = '\n'
    · subst hc
      rw [if_pos rfl, if_pos rfl, newlineEnds_append b, List.cons_append, Nat.add_assoc]
      rfl
    · rw [if_neg hc, if_neg hc, newlineEnds_append b, Nat.add_assoc]

theorem length_newlineEnds : ∀ (n : Nat) (a : List Char),
    (newlineEnds n a).length = a.count '\n'
  | n, [] => rfl
  | n, c :: a => by
    rw [newlineEnds, List.count_cons]
    by_cases hc : c = '\n'
    · rw [if_pos hc, List.length_cons, length_newlineEnds, hc, if_pos (beq_self_eq_true _)]
    · rw [if_neg hc, length_newlineEnds, if_neg (by simpa using hc)]
      rfl

/-- The ends of newlines lie inside the text, and one after the other. -/
theorem newlineEnds_bounds : ∀ (n : Nat) (a : List Char),
    (∀ m ∈ newlineEnds n a, n < m ∧ m ≤ n + width a) ∧ (newlineEnds n a).Pairwise (· < ·)
  | n, [] => ⟨by simp [newlineEnds], List.Pairwise.nil⟩
  | n, c :: a => by
    have hsize := c.utf8Size_pos
    rw [newlineEnds, width_cons]
    by_cases hc : c = '\n'
    · obtain ⟨hbounds, hpairs⟩ := newlineEnds_bounds (n + 1) a
      rw [if_pos hc]
      constructor
      · intro m hm
        rcases List.mem_cons.mp hm with rfl | hm
        · omega
        · have hb := hbounds m hm
          omega
      · refine List.pairwise_cons.mpr ⟨?_, hpairs⟩
        intro m hm
        exact (hbounds m hm).1
    · obtain ⟨hbounds, hpairs⟩ := newlineEnds_bounds (n + c.utf8Size) a
      rw [if_neg hc]
      refine ⟨?_, hpairs⟩
      intro m hm
      have hb := hbounds m hm
      omega

theorem pairwise_lineStarts (source : List Char) : (lineStarts source).Pairwise (· < ·) := by
  obtain ⟨hbounds, hpairs⟩ := newlineEnds_bounds 0 source
  rw [lineStarts_eq]
  exact List.pairwise_cons.mpr ⟨fun m hm => (hbounds m hm).1, hpairs⟩

/-- The line that a first part of the source ends on begins where its whole lines end. -/
theorem lineStarts_last (a : List Char) :
    (0 :: newlineEnds 0 a)[a.count '\n']? = some (width (wholeLines a)) := by
  induction a using List.reverseRecOn with
  | nil => rfl
  | append_singleton a c ih =>
    rw [newlineEnds_append, List.count_append]
    by_cases hc : c = '\n'
    · subst hc
      have hlength : (0 :: newlineEnds 0 a).length = a.count '\n' + ['\n'].count '\n' := by
        rw [List.length_cons, length_newlineEnds]
        rfl
      have hend : newlineEnds (0 + width a) ['\n'] = [width a + 1] := by
        rw [Nat.zero_add]
        rfl
      rw [← List.cons_append, ← hlength, hend, List.getElem?_concat_length, wholeLines_newline,
        width_append]
      rfl
    · have hcount : [c].count '\n' = 0 := List.count_eq_zero.mpr (by simpa using Ne.symm hc)
      have hnone : newlineEnds (0 + width a) [c] = [] := by
        rw [newlineEnds, if_neg hc, newlineEnds]
      rw [hcount, hnone, List.append_nil, Nat.add_zero, ih, wholeLines_concat hc]

/-! ### The search -/

/-- What a search in increasing numbers has to give: the index at which a number stands, or the
index at which it would have to be inserted. -/
structure Searches (search : List Nat → Nat → Except Nat Nat) : Prop where
  found : ∀ {xs x i}, xs.Pairwise (· < ·) → search xs x = .ok i → xs[i]? = some x
  missing : ∀ {xs x i}, xs.Pairwise (· < ·) → search xs x = .error i →
    i ≤ xs.length ∧ (∀ y ∈ xs.take i, y < x) ∧ ∀ y ∈ xs.drop i, x < y

/-- The line of the byte `n`, by a search among the bytes at which lines begin. There is none
before the first. -/
def tableLine? (search : List Nat → Nat → Except Nat Nat) (starts : List Nat) (n : Nat) :
    Option Nat :=
  match search starts n with
  | .ok i => some i
  | .error 0 => none
  | .error (i + 1) => some i

/-- The text from the byte `m` to the byte `n`, if both fall between characters. -/
def slice? (source : List Char) (m n : Nat) : Option (List Char) :=
  if m ≤ n then
    (cut? source m).bind fun front => (cut? source n).map fun back =>
      front.take (front.length - back.length)
  else none

/-- The position of a byte offset, which may be past the end, by the table of lines. -/
def tableLocate? (search : List Nat → Nat → Except Nat Nat) (source : List Char) (offset : Nat) :
    Option Position :=
  let n := min offset (width source)
  (tableLine? search (lineStarts source) n).bind fun line =>
    (lineStarts source)[line]?.bind fun start =>
      (slice? source start n).map fun text => ⟨line + 1, text.length + 1⟩

variable {search : List Nat → Nat → Except Nat Nat}

/-- Where some numbers are at most `n` and the others are above it, the search ends up at the last
of the first. -/
theorem tableLine?_of_split (hsearch : Searches search) {xs ys : List Nat} {x n : Nat}
    (hpairs : (x :: xs ++ ys).Pairwise (· < ·)) (hlow : ∀ m ∈ x :: xs, m ≤ n)
    (hhigh : ∀ m ∈ ys, n < m) : tableLine? search (x :: xs ++ ys) n = some xs.length := by
  have hlast : xs.length < (x :: xs ++ ys).length := by
    simp only [List.cons_append, List.length_cons, List.length_append]
    omega
  have hmem : (x :: xs ++ ys)[xs.length] ∈ x :: xs := by
    rw [List.getElem_append_left (by simp)]
    exact List.getElem_mem _
  have hle := hlow _ hmem
  unfold tableLine?
  cases hs : search (x :: xs ++ ys) n with
  | ok i =>
    obtain ⟨hi, hget⟩ := List.getElem?_eq_some_iff.mp (hsearch.found hpairs hs)
    have hxi : ¬ xs.length < i := by
      intro hlt
      have hmem' : (x :: xs ++ ys)[i] ∈ ys := by
        rw [List.getElem_append_right (by rw [List.length_cons]; omega)]
        exact List.getElem_mem _
      have hlarge := hhigh _ hmem'
      omega
    have hix : ¬ i < xs.length := by
      intro hlt
      have hless := List.pairwise_iff_getElem.mp hpairs i xs.length hi hlast hlt
      omega
    simp only [Option.some.injEq]
    omega
  | error i =>
    obtain ⟨hi, htake, hdrop⟩ := hsearch.missing hpairs hs
    have hix : ¬ i ≤ xs.length := by
      intro hle'
      have hmem' : (x :: xs ++ ys)[xs.length] ∈ (x :: xs ++ ys).drop i :=
        List.mem_drop_iff_getElem.mpr ⟨xs.length - i, by omega, by simp [hle']⟩
      have hlarge := hdrop _ hmem'
      omega
    have hxi : ¬ xs.length + 1 < i := by
      intro hlt
      have hlong : xs.length + 1 < (x :: xs ++ ys).length := by omega
      have hmem' : (x :: xs ++ ys)[xs.length + 1] ∈ (x :: xs ++ ys).take i :=
        List.mem_take_iff_getElem.mpr ⟨xs.length + 1, by omega, rfl⟩
      have hy : (x :: xs ++ ys)[xs.length + 1] ∈ ys := by
        rw [List.getElem_append_right (by simp)]
        exact List.getElem_mem _
      have hsmall := htake _ hmem'
      have hlarge := hhigh _ hy
      omega
    obtain rfl : i = xs.length + 1 := by omega
    rfl

/-- The text between two cuts. -/
theorem slice?_append (a b c : List Char) :
    slice? (a ++ (b ++ c)) (width a) (width (a ++ b)) = some b := by
  have hle : width a ≤ width (a ++ b) := by
    rw [width_append]
    omega
  have hback : cut? (a ++ (b ++ c)) (width (a ++ b)) = some c := by
    rw [← List.append_assoc]
    exact cut?_append c (a ++ b)
  rw [slice?, if_pos hle, cut?_append, hback]
  simp

theorem slice?_eq_none {source : List Char} {n : Nat} (h : cut? source n = none) (m : Nat) :
    slice? source m n = none := by
  unfold slice?
  by_cases hle : m ≤ n
  · rw [if_pos hle, h]
    cases cut? source m with
    | none => rfl
    | some front => rfl
  · rw [if_neg hle]

/-- A position by the table is the position, whatever search is used. -/
theorem tableLocate?_eq (hsearch : Searches search) (source : List Char) (offset : Nat) :
    tableLocate? search source offset = locate? source offset := by
  unfold tableLocate?
  cases hcut : cut? source (min offset (width source)) with
  | none =>
    have hnone : locate? source offset = none := by rw [locate?, hcut, Option.map_none]
    simp only [slice?_eq_none hcut, Option.map_none, Option.bind_fun_none, hnone]
  | some b =>
    obtain ⟨a, rfl, ha⟩ := exists_append_of_cut? hcut
    obtain ⟨hbounds, -⟩ := newlineEnds_bounds 0 a
    obtain ⟨hbounds', -⟩ := newlineEnds_bounds (0 + width a) b
    have hstarts : lineStarts (a ++ b) =
        0 :: newlineEnds 0 a ++ newlineEnds (0 + width a) b := by
      rw [lineStarts_eq, newlineEnds_append, List.cons_append]
    have hpairs := pairwise_lineStarts (a ++ b)
    rw [hstarts] at hpairs
    have hlow : ∀ m ∈ 0 :: newlineEnds 0 a, m ≤ width a := by
      intro m hm
      rcases List.mem_cons.mp hm with rfl | hm
      · exact Nat.zero_le _
      · have hb := hbounds m hm
        omega
    have hhigh : ∀ m ∈ newlineEnds (0 + width a) b, width a < m := by
      intro m hm
      have hb := hbounds' m hm
      omega
    have hline := tableLine?_of_split hsearch hpairs hlow hhigh
    have hstart : (0 :: newlineEnds 0 a ++ newlineEnds (0 + width a) b)[a.count '\n']? =
        some (width (wholeLines a)) := by
      rw [List.getElem?_append_left, lineStarts_last]
      rw [List.length_cons, length_newlineEnds]
      omega
    have hslice := slice?_append (wholeLines a) (lastLine a) b
    rw [← List.append_assoc, wholeLines_append_lastLine] at hslice
    rw [length_newlineEnds] at hline
    rw [locate?_of_split ha, ← ha, hstarts]
    simp only [hline, hstart, hslice, Option.bind_some, Option.map_some, Nat.add_comm 1]

/-- A byte between two characters, or one past the end, has a position: its line is one more than
the newlines before it, and its column one more than the characters from the last of them on. A byte
inside a character has none. Bytes further on have later positions, and so have tokens further on.
The table of lines gives the same positions, whatever search is used in it. -/
theorem locate?_counts (hsearch : Searches search) (source : List Char) :
    (∀ offset, IsBoundary source (min offset (width source)) →
      ∃ before after, source = before ++ after ∧ width before = min offset (width source) ∧
        locate? source offset =
          some ⟨1 + before.count '\n', 1 + (lastLine before).length⟩) ∧
    (∀ offset, locate? source offset = none ↔
      ¬ IsBoundary source (min offset (width source))) ∧
    (∀ m n, IsBoundary source m → IsBoundary source n → m < n →
      ∃ p q, locate? source m = some p ∧ locate? source n = some q ∧ p.Before q) ∧
    (∀ ts, Lexed source 0 ts → ts.Pairwise fun t u =>
      ∃ p q, locate? source t.start = some p ∧ locate? source u.start = some q ∧ p.Before q) ∧
    ∀ offset, tableLocate? search source offset = locate? source offset := by
  have hlater : ∀ m n, IsBoundary source m → IsBoundary source n → m < n →
      ∃ p q, locate? source m = some p ∧ locate? source n = some q ∧ p.Before q := by
    intro m n hm hn hlt
    exact ⟨_, _, locate?_of_boundary hm, locate?_of_boundary hn, before_of_lt hm hn hlt⟩
  refine ⟨?_, fun _ => locate?_eq_none_iff, hlater, ?_, tableLocate?_eq hsearch source⟩
  · rintro offset ⟨before, after, rfl, hwidth⟩
    exact ⟨before, after, rfl, hwidth, locate?_of_split hwidth⟩
  · intro ts hts
    obtain ⟨hstarts, hpairs⟩ := hts.starts ⟨[], source, rfl, rfl⟩
    refine List.Pairwise.imp_of_mem ?_ hpairs
    intro t u ht hu hlt
    exact hlater _ _ (hstarts t ht).2 (hstarts u hu).2 hlt

/-- A search from the front. -/
def scanFor (xs : List Nat) (x : Nat) : Except Nat Nat :=
  if xs[(xs.takeWhile (· < x)).length]? = some x then .ok (xs.takeWhile (· < x)).length
  else .error (xs.takeWhile (· < x)).length

theorem searches_scanFor : Searches scanFor where
  found := by
    intro xs x i _ h
    unfold scanFor at h
    by_cases hx : xs[(xs.takeWhile (· < x)).length]? = some x
    · rw [if_pos hx] at h
      rwa [← Except.ok.inj h]
    · rw [if_neg hx] at h
      cases h
  missing := by
    intro xs x i hpairs h
    have hsplit : xs.takeWhile (· < x) ++ xs.dropWhile (· < x) = xs :=
      List.takeWhile_append_dropWhile
    unfold scanFor at h
    by_cases hx : xs[(xs.takeWhile (· < x)).length]? = some x
    · rw [if_pos hx] at h
      cases h
    · rw [if_neg hx] at h
      obtain rfl := Except.error.inj h
      have htake : xs.take (xs.takeWhile (· < x)).length = xs.takeWhile (· < x) := by
        conv => lhs; arg 2; rw [← hsplit]
        exact List.take_left
      have hdrop : xs.drop (xs.takeWhile (· < x)).length = xs.dropWhile (· < x) := by
        conv => lhs; arg 2; rw [← hsplit]
        exact List.drop_left
      rw [htake, hdrop]
      refine ⟨(List.takeWhile_sublist _).length_le, ?_, ?_⟩
      · intro y hy
        simpa using List.all_eq_true.mp List.all_takeWhile y hy
      · -- the first of the others is not below `x` and is not `x`, and the rest are above it
        cases hrest : xs.dropWhile (· < x) with
        | nil => simp
        | cons z zs =>
          have hz : ¬ z < x := by
            have hhead := List.head?_dropWhile_not (fun y => decide (y < x)) xs
            simpa [hrest] using hhead
          have hne : z ≠ x := by
            rintro rfl
            apply hx
            rw [← List.head?_drop, hdrop, hrest]
            rfl
          have hsorted : (z :: zs).Pairwise (· < ·) := by
            rw [← hrest]
            exact hpairs.sublist (List.dropWhile_sublist _)
          intro y hy
          rcases List.mem_cons.mp hy with rfl | hy
          · omega
          · have hlt := (List.pairwise_cons.mp hsorted).1 y hy
            omega

/-- The first line has a letter of two bytes and the second is empty. The third byte begins a line,
the fifth stands between two entries of the table, and the last is past the end. -/
theorem locate?_counts_empty_line :
    locate? "é\n\nab".toList 3 = some ⟨2, 1⟩ ∧
    tableLocate? scanFor "é\n\nab".toList 3 = some ⟨2, 1⟩ ∧
    locate? "é\n\nab".toList 5 = some ⟨3, 2⟩ ∧
    tableLocate? scanFor "é\n\nab".toList 5 = some ⟨3, 2⟩ ∧
    (⟨2, 1⟩ : Position).Before ⟨3, 2⟩ ∧
    ∃ before after, "é\n\nab".toList = before ++ after ∧ width before = 6 ∧
      locate? "é\n\nab".toList 99 =
        some ⟨1 + before.count '\n', 1 + (lastLine before).length⟩ := by
  have hthree : IsBoundary "é\n\nab".toList 3 := ⟨['é', '\n'], ['\n', 'a', 'b'], rfl, rfl⟩
  have hfive : IsBoundary "é\n\nab".toList 5 := ⟨['é', '\n', '\n', 'a'], ['b'], rfl, rfl⟩
  have hend : IsBoundary "é\n\nab".toList 6 := ⟨['é', '\n', '\n', 'a', 'b'], [], rfl, rfl⟩
  have hp : locate? "é\n\nab".toList 3 = some ⟨2, 1⟩ := by decide +kernel
  have hq : locate? "é\n\nab".toList 5 = some ⟨3, 2⟩ := by decide +kernel
  obtain ⟨hcounts, -, hlater, -, htable⟩ := locate?_counts searches_scanFor "é\n\nab".toList
  obtain ⟨p, q, hp', hq', hbefore⟩ := hlater 3 5 hthree hfive (by decide)
  obtain rfl := Option.some.inj (hp.symm.trans hp')
  obtain rfl := Option.some.inj (hq.symm.trans hq')
  exact ⟨hp, (htable 3).trans hp, hq, (htable 5).trans hq, hbefore, hcounts 99 hend⟩

end StackScript
