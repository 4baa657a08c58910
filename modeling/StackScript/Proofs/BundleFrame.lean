/-
# The frame of a bundle

A bundle is a frame around its body: the magic bytes, a first section that nobody looks at, and a
second section whose bytes stand for code. Any four bytes are the length of some section, so once
the magic bytes are there, input that holds no whole frame is one that ends too early: it is the
beginning of a frame, and more bytes could complete it. This leaves three ways to fail. There are
too few bytes, the magic bytes are others, or the frame is whole and its second section stands for
no code. Each of the four outcomes has a lemma that says what is read, and `read_cases` says that
there is no fifth, so which outcome it was can be told from what was read.

Key definitions: `Bundle.frame`, `Bundle.IsBeginning`.
Key theorems: `Bundle.readSection_eq_ok_iff`, `Bundle.isBeginning_of_readSection`,
`Bundle.read_cases`, `Bundle.read_classifies`.
-/
import StackScript.Proofs.BundleStream

namespace StackScript
namespace Bundle

variable {bytes whole inner first second rest : List UInt8}

/-- Bytes that a section can hold. -/
def IsShort (bytes : List UInt8) : Prop := bytes.length < sectionLimit

/-- A frame with the bytes of its two sections, after the letters `MERC`. -/
def frame (first second : List UInt8) : List UInt8 :=
  [0x4D, 0x45, 0x52, 0x43] ++ framed first ++ framed second

theorem frame_eq (first second : List UInt8) :
    frame first second = magic ++ framed first ++ framed second := rfl

/-- The bytes are the beginning of the others, and some are missing. -/
def IsBeginning (bytes whole : List UInt8) : Prop := bytes <+: whole ∧ bytes ≠ whole

theorem isBeginning_iff : IsBeginning bytes whole ↔ ∃ more, more ≠ [] ∧ whole = bytes ++ more := by
  constructor
  · rintro ⟨⟨more, rfl⟩, hne⟩
    refine ⟨more, ?_, rfl⟩
    rintro rfl
    exact hne (List.append_nil bytes).symm
  · rintro ⟨more, hmore, rfl⟩
    exact ⟨List.prefix_append bytes more, by simpa using hmore⟩

/-! ### Lengths -/

theorem wordValue_lt (a b c d : UInt8) : wordValue a b c d < sectionLimit := by
  have ha := a.toNat_lt
  have hb := b.toNat_lt
  have hc := c.toNat_lt
  have hd := d.toNat_lt
  unfold wordValue sectionLimit
  omega

theorem word_wordValue (a b c d : UInt8) : word (wordValue a b c d) = [a, b, c, d] := by
  have ha := a.toNat_lt
  have hb := b.toNat_lt
  have hc := c.toNat_lt
  have hd := d.toNat_lt
  have hbyte : ∀ (n : Nat) (x : UInt8), n % 256 = x.toNat → n.toUInt8 = x := by
    intro n x h
    rw [← UInt8.toNat_inj]
    exact UInt8.toNat_ofNat'.trans h
  unfold word wordValue
  rw [hbyte _ a (by omega), hbyte _ b (by omega), hbyte _ c (by omega), hbyte _ d (by omega)]

/-- Any four bytes are a length. -/
theorem exists_word (h : 4 ≤ bytes.length) :
    ∃ n tail, n < sectionLimit ∧ bytes = word n ++ tail := by
  rcases bytes with _ | ⟨a, _ | ⟨b, _ | ⟨c, _ | ⟨d, tail⟩⟩⟩⟩
  · simp at h
  · simp at h
  · simp at h
  · simp at h
  · refine ⟨wordValue a b c d, tail, wordValue_lt a b c d, ?_⟩
    rw [word_wordValue]
    rfl

/-! ### Sections -/

theorem readSection_of_length_lt (h : bytes.length < 4) : readSection bytes = .error .ended := by
  rcases bytes with _ | ⟨a, _ | ⟨b, _ | ⟨c, _ | ⟨d, tail⟩⟩⟩⟩
  · rfl
  · rfl
  · rfl
  · rfl
  · simp only [List.length_cons] at h
    omega

theorem readSection_word {n : Nat} (h : n < sectionLimit) (tail : List UInt8) :
    readSection (word n ++ tail) =
      if n ≤ tail.length then .ok (tail.take n, tail.drop n)
      else .error (.truncated n tail.length) := by
  rw [word]
  simp only [List.cons_append, List.nil_append, readSection, wordValue_word h]

/-- A section is read exactly where there is one, and what follows it is left. -/
theorem readSection_eq_ok_iff :
    readSection bytes = .ok (inner, rest) ↔ IsShort inner ∧ bytes = framed inner ++ rest := by
  constructor
  · intro h
    by_cases hlt : bytes.length < 4
    · rw [readSection_of_length_lt hlt] at h
      cases h
    · obtain ⟨n, tail, hn, rfl⟩ := exists_word (Nat.le_of_not_lt hlt)
      rw [readSection_word hn] at h
      by_cases hle : n ≤ tail.length
      · rw [if_pos hle] at h
        obtain ⟨rfl, rfl⟩ := Prod.mk.inj (Except.ok.inj h)
        have hlength : (tail.take n).length = n := List.length_take_of_le hle
        refine ⟨?_, ?_⟩
        · unfold IsShort
          omega
        · rw [framed, hlength, List.append_assoc, List.take_append_drop]
      · rw [if_neg hle] at h
        cases h
  · rintro ⟨hshort, rfl⟩
    exact readSection_framed hshort rest

theorem framed_inj {tail : List UInt8} (h : IsShort inner) (h' : IsShort first)
    (he : framed inner ++ rest = framed first ++ tail) : inner = first ∧ rest = tail := by
  have hread := readSection_framed h rest
  rw [he, readSection_framed h' tail] at hread
  obtain ⟨rfl, rfl⟩ := Prod.mk.inj (Except.ok.inj hread)
  exact ⟨rfl, rfl⟩

/-- Where there is no section, the bytes are the beginning of one. -/
theorem isBeginning_of_readSection {e : ReadError} (h : readSection bytes = .error e) :
    e.kind = .unexpectedEof ∧ ∃ inner, IsShort inner ∧ IsBeginning bytes (framed inner) := by
  by_cases hlt : bytes.length < 4
  · rw [readSection_of_length_lt hlt] at h
    obtain rfl := Except.error.inj h
    have hpad : 4 ≤ (bytes ++ List.replicate (4 - bytes.length) 0).length := by
      rw [List.length_append, List.length_replicate]
      omega
    obtain ⟨n, tail, hn, hword⟩ := exists_word hpad
    have htail : tail = [] := by
      have hlength := congrArg List.length hword
      simp only [List.length_append, List.length_replicate, word, List.length_cons,
        List.length_nil] at hlength
      exact List.eq_nil_of_length_eq_zero (by omega)
    subst htail
    rw [List.append_nil] at hword
    refine ⟨rfl, List.replicate n 0, by simpa [IsShort] using hn, isBeginning_iff.mpr ?_⟩
    refine ⟨List.replicate (4 - bytes.length) 0 ++ List.replicate n 0, ?_, ?_⟩
    · simp only [ne_eq, List.append_eq_nil_iff, List.replicate_eq_nil_iff, not_and]
      omega
    · rw [framed, List.length_replicate, ← hword, List.append_assoc]
  · obtain ⟨n, tail, hn, rfl⟩ := exists_word (Nat.le_of_not_lt hlt)
    rw [readSection_word hn] at h
    by_cases hle : n ≤ tail.length
    · rw [if_pos hle] at h
      cases h
    · rw [if_neg hle] at h
      obtain rfl := Except.error.inj h
      have hlength : (tail ++ List.replicate (n - tail.length) 0).length = n := by
        rw [List.length_append, List.length_replicate]
        omega
      refine ⟨rfl, tail ++ List.replicate (n - tail.length) 0, ?_, isBeginning_iff.mpr ?_⟩
      · unfold IsShort
        rwa [hlength]
      · refine ⟨List.replicate (n - tail.length) 0, ?_, ?_⟩
        · simp only [ne_eq, List.replicate_eq_nil_iff]
          omega
        · rw [framed, hlength, List.append_assoc]

/-- The beginning of a section is not read as another section. -/
theorem readSection_of_isBeginning (hshort : IsShort inner) (h : IsBeginning bytes (framed inner)) :
    ∃ e, e.kind = .unexpectedEof ∧ readSection bytes = .error e := by
  obtain ⟨more, hmore, hframed⟩ := isBeginning_iff.mp h
  cases hread : readSection bytes with
  | error e => exact ⟨e, (isBeginning_of_readSection hread).1, rfl⟩
  | ok p =>
    obtain ⟨hp, hbytes⟩ := readSection_eq_ok_iff.mp hread
    rw [hbytes, List.append_assoc, ← List.append_nil (framed inner)] at hframed
    have hnil := (framed_inj hshort hp hframed).2
    exact absurd (List.append_eq_nil_iff.mp hnil.symm).2 hmore

/-! ### Bundles -/

/-- What a whole frame is read as: the code that its second section stands for. -/
def opened (second rest : List UInt8) : Except ReadError (Code × List UInt8) :=
  (decode? second).elim (.error .malformed) fun code => .ok (code, rest)

theorem opened_eq_ok {code : Code} {left : List UInt8} :
    opened second rest = .ok (code, left) ↔ decode? second = some code ∧ rest = left := by
  unfold opened
  cases decode? second with
  | none => simp
  | some code' => simp

theorem opened_eq_error {e : ReadError} :
    opened second rest = .error e ↔ decode? second = none ∧ e = .malformed := by
  unfold opened
  cases decode? second with
  | none => simp [eq_comm]
  | some code' => simp

theorem read_of_first_error {tail : List UInt8} {e : ReadError} (h : readSection tail = .error e) :
    read (magic ++ tail) = .error e := by
  rw [magic]
  simp only [List.cons_append, List.nil_append, read, magic, if_true, h, bind, Except.bind]

theorem read_of_second_error {tail mid : List UInt8} {e : ReadError}
    (h₁ : readSection tail = .ok (first, mid)) (h₂ : readSection mid = .error e) :
    read (magic ++ tail) = .error e := by
  rw [magic]
  simp only [List.cons_append, List.nil_append, read, magic, if_true, h₁, h₂, bind, Except.bind]

theorem read_of_sections {tail mid : List UInt8} (h₁ : readSection tail = .ok (first, mid))
    (h₂ : readSection mid = .ok (second, rest)) : read (magic ++ tail) = opened second rest := by
  rw [magic]
  simp only [List.cons_append, List.nil_append, read, magic, if_true, h₁, h₂, bind, Except.bind,
    opened]
  cases decode? second with
  | none => rfl
  | some code => rfl

theorem read_of_length_lt (h : bytes.length < 4) : read bytes = .error .ended := by
  rcases bytes with _ | ⟨a, _ | ⟨b, _ | ⟨c, _ | ⟨d, tail⟩⟩⟩⟩
  · rfl
  · rfl
  · rfl
  · rfl
  · simp only [List.length_cons] at h
    omega

theorem read_of_not_magic (h : 4 ≤ bytes.length) (hm : ¬ magic <+: bytes) :
    read bytes = .error (.wrongMagic (bytes.take 4)) := by
  rcases bytes with _ | ⟨a, _ | ⟨b, _ | ⟨c, _ | ⟨d, tail⟩⟩⟩⟩
  · simp at h
  · simp at h
  · simp at h
  · simp at h
  · have hne : [a, b, c, d] ≠ magic := by
      intro he
      exact hm ⟨tail, by rw [← he]; rfl⟩
    simp only [read, if_neg hne]
    rfl

/-- A whole frame is opened, and what follows it is left. -/
theorem read_frame (h : IsShort first) (h' : IsShort second) (rest : List UInt8) :
    read (frame first second ++ rest) = opened second rest := by
  rw [frame_eq, List.append_assoc, List.append_assoc]
  exact read_of_sections (readSection_framed h _) (readSection_framed h' rest)

/-- The beginning of a frame ends too early. -/
theorem read_of_isBeginning (hm : magic <+: bytes) (h : IsShort first) (h' : IsShort second)
    (hb : IsBeginning bytes (frame first second)) :
    ∃ e, e.kind = .unexpectedEof ∧ read bytes = .error e := by
  obtain ⟨tail, rfl⟩ := hm
  obtain ⟨more, hmore, hframe⟩ := isBeginning_iff.mp hb
  rw [frame_eq, List.append_assoc, List.append_assoc] at hframe
  have htail := List.append_cancel_left hframe
  cases hread : readSection tail with
  | error e => exact ⟨e, (isBeginning_of_readSection hread).1, read_of_first_error hread⟩
  | ok p =>
    obtain ⟨hp, hbytes⟩ := readSection_eq_ok_iff.mp hread
    rw [hbytes, List.append_assoc] at htail
    obtain ⟨-, hsecond⟩ := framed_inj h hp htail
    have hrest : IsBeginning p.2 (framed second) := isBeginning_iff.mpr ⟨more, hmore, hsecond⟩
    obtain ⟨e, hkind, he⟩ := readSection_of_isBeginning h' hrest
    exact ⟨e, hkind, read_of_second_error hread he⟩

/-- Any bytes are too few, or do not begin with the magic bytes, or are the beginning of a frame,
or begin with a whole frame. -/
theorem read_cases (bytes : List UInt8) :
    bytes.length < 4 ∨ (4 ≤ bytes.length ∧ ¬ magic <+: bytes) ∨
    (magic <+: bytes ∧
      ∃ first second, IsShort first ∧ IsShort second ∧ IsBeginning bytes (frame first second)) ∨
    ∃ first second rest, IsShort first ∧ IsShort second ∧ bytes = frame first second ++ rest := by
  by_cases hlt : bytes.length < 4
  · exact .inl hlt
  by_cases hm : magic <+: bytes
  · refine .inr (.inr ?_)
    obtain ⟨tail, rfl⟩ := hm
    cases h₁ : readSection tail with
    | error e =>
      have hnil : IsShort [] := by
        unfold IsShort
        decide
      obtain ⟨-, first, hfirst, hbeginning⟩ := isBeginning_of_readSection h₁
      obtain ⟨more, hmore, hframed⟩ := isBeginning_iff.mp hbeginning
      refine .inl ⟨List.prefix_append _ _, first, [], hfirst, hnil, isBeginning_iff.mpr ?_⟩
      refine ⟨more ++ framed [], by simp [hmore], ?_⟩
      rw [frame_eq, hframed]
      simp
    | ok p =>
      obtain ⟨hfirst, htail⟩ := readSection_eq_ok_iff.mp h₁
      cases h₂ : readSection p.2 with
      | error e =>
        obtain ⟨-, second, hsecond, hbeginning⟩ := isBeginning_of_readSection h₂
        obtain ⟨more, hmore, hframed⟩ := isBeginning_iff.mp hbeginning
        refine .inl ⟨List.prefix_append _ _, p.1, second, hfirst, hsecond, isBeginning_iff.mpr ?_⟩
        refine ⟨more, hmore, ?_⟩
        rw [frame_eq, hframed, htail]
        simp
      | ok q =>
        obtain ⟨hsecond, hp⟩ := readSection_eq_ok_iff.mp h₂
        refine .inr ⟨p.1, q.1, q.2, hfirst, hsecond, ?_⟩
        rw [htail, hp, frame_eq]
        simp
  · exact .inr (.inl ⟨Nat.le_of_not_lt hlt, hm⟩)

theorem read_eq_ok_iff {code : Code} : read bytes = .ok (code, rest) ↔
    ∃ first second, IsShort first ∧ IsShort second ∧ bytes = frame first second ++ rest ∧
      decode? second = some code := by
  constructor
  · intro h
    rcases read_cases bytes with hlt | ⟨hle, hm⟩ | ⟨hm, first, second, h₁, h₂, hb⟩ |
      ⟨first, second, left, h₁, h₂, rfl⟩
    · rw [read_of_length_lt hlt] at h
      cases h
    · rw [read_of_not_magic hle hm] at h
      cases h
    · obtain ⟨e, -, he⟩ := read_of_isBeginning hm h₁ h₂ hb
      rw [he] at h
      cases h
    · rw [read_frame h₁ h₂] at h
      obtain ⟨hd, rfl⟩ := opened_eq_ok.mp h
      exact ⟨first, second, h₁, h₂, rfl, hd⟩
  · rintro ⟨first, second, h₁, h₂, rfl, hd⟩
    rw [read_frame h₁ h₂]
    exact opened_eq_ok.mpr ⟨hd, rfl⟩

theorem read_unexpectedEof_iff : (∃ e, read bytes = .error e ∧ e.kind = .unexpectedEof) ↔
    bytes.length < 4 ∨ magic <+: bytes ∧
      ∃ first second, IsShort first ∧ IsShort second ∧ IsBeginning bytes (frame first second) := by
  constructor
  · rintro ⟨e, h, hkind⟩
    rcases read_cases bytes with hlt | ⟨hle, hm⟩ | hb | ⟨first, second, left, h₁, h₂, rfl⟩
    · exact .inl hlt
    · rw [read_of_not_magic hle hm] at h
      obtain rfl := Except.error.inj h
      cases hkind
    · exact .inr hb
    · rw [read_frame h₁ h₂] at h
      obtain ⟨-, rfl⟩ := opened_eq_error.mp h
      cases hkind
  · rintro (hlt | ⟨hm, first, second, h₁, h₂, hb⟩)
    · exact ⟨.ended, read_of_length_lt hlt, rfl⟩
    · obtain ⟨e, hkind, he⟩ := read_of_isBeginning hm h₁ h₂ hb
      exact ⟨e, he, hkind⟩

theorem read_invalidData_iff : (∃ e, read bytes = .error e ∧ e.kind = .invalidData) ↔
    4 ≤ bytes.length ∧ ¬ magic <+: bytes ∨
      ∃ first second rest, IsShort first ∧ IsShort second ∧
        bytes = frame first second ++ rest ∧ decode? second = none := by
  constructor
  · rintro ⟨e, h, hkind⟩
    rcases read_cases bytes with hlt | hm | ⟨hm, first, second, h₁, h₂, hb⟩ |
      ⟨first, second, left, h₁, h₂, rfl⟩
    · rw [read_of_length_lt hlt] at h
      obtain rfl := Except.error.inj h
      cases hkind
    · exact .inl hm
    · obtain ⟨e', hkind', he⟩ := read_of_isBeginning hm h₁ h₂ hb
      rw [he] at h
      obtain rfl := Except.error.inj h
      rw [hkind] at hkind'
      cases hkind'
    · rw [read_frame h₁ h₂] at h
      exact .inr ⟨first, second, left, h₁, h₂, rfl, (opened_eq_error.mp h).1⟩
  · rintro (⟨hle, hm⟩ | ⟨first, second, left, h₁, h₂, rfl, hd⟩)
    · exact ⟨_, read_of_not_magic hle hm, rfl⟩
    · refine ⟨.malformed, ?_, rfl⟩
      rw [read_frame h₁ h₂]
      exact opened_eq_error.mpr ⟨hd, rfl⟩

/-- What the first section holds makes no difference, whatever follows it. -/
theorem read_first_section {other : List UInt8} (h : IsShort first) (h' : IsShort other)
    (tail : List UInt8) :
    read (magic ++ framed first ++ tail) = read (magic ++ framed other ++ tail) := by
  have hread := readSection_framed h tail
  have hread' := readSection_framed h' tail
  rw [List.append_assoc, List.append_assoc]
  cases ht : readSection tail with
  | error e => rw [read_of_second_error hread ht, read_of_second_error hread' ht]
  | ok p =>
    obtain ⟨second, rest⟩ := p
    rw [read_of_sections hread ht, read_of_sections hread' ht]

/-- What reading makes of any bytes. (1) It gives code and what is left exactly if the bytes before
that are a frame whose second section stands for the code. (2) It fails because the input ends
exactly if there are less than four bytes, or the magic bytes and then no more than the beginning of
a frame. (3) It fails because the data is wrong exactly if there are four other bytes at the front,
or a whole frame whose second section stands for no code. (4) Another first section gives the same
code or the same failure. -/
theorem read_classifies :
    (∀ bytes code rest, read bytes = .ok (code, rest) ↔
      ∃ first second, IsShort first ∧ IsShort second ∧ bytes = frame first second ++ rest ∧
        decode? second = some code) ∧
    (∀ bytes, (∃ e, read bytes = .error e ∧ e.kind = .unexpectedEof) ↔
      bytes.length < 4 ∨ [0x4D, 0x45, 0x52, 0x43] <+: bytes ∧
        ∃ first second, IsShort first ∧ IsShort second ∧ IsBeginning bytes (frame first second)) ∧
    (∀ bytes, (∃ e, read bytes = .error e ∧ e.kind = .invalidData) ↔
      4 ≤ bytes.length ∧ ¬ [0x4D, 0x45, 0x52, 0x43] <+: bytes ∨
        ∃ first second rest, IsShort first ∧ IsShort second ∧
          bytes = frame first second ++ rest ∧ decode? second = none) ∧
    ∀ first other tail, IsShort first → IsShort other →
      read ([0x4D, 0x45, 0x52, 0x43] ++ framed first ++ tail) =
        read ([0x4D, 0x45, 0x52, 0x43] ++ framed other ++ tail) := by
  refine ⟨fun _ _ _ => read_eq_ok_iff, fun _ => read_unexpectedEof_iff,
    fun _ => read_invalidData_iff, fun first other tail h h' => ?_⟩
  exact read_first_section h h' tail

end Bundle
end StackScript
