/-
# Bundles in too little room

A bundle is put down in five pieces: the magic bytes, and a length and the bytes of each section.
Where there is room for some number of bytes only, the first piece that does not fit is put down in
part and none after it. The end of the room may fall into any of the pieces; since a piece takes its
own length from the room, pieces are put down as their bytes in one piece would be
(`Place.putAll_eq_put`), and what is there in the end is the beginning of the bundle.

A bundle that is only begun is never read as code. What is missing is noticed wherever it was cut
off, because a frame is read only as a whole (`read_of_isBeginning_frame`).

Key definitions: `Bundle.Place`, `Bundle.Place.putAll`, `Bundle.pieces`.
Key theorems: `Bundle.Place.putAll_eq_put`, `Bundle.write_eq_putAll`,
`Bundle.read_of_isBeginning_frame`, `Bundle.write_in_room`.
-/
import StackScript.Proofs.BundleFrame

namespace StackScript
namespace Bundle

/-! ### Piece by piece -/

/-- The bytes that were put down, and how many more there is room for. -/
structure Place where
  bytes : List UInt8
  room : Nat
  deriving DecidableEq, Repr

namespace Place

/-- A place with nothing in it. -/
def empty (room : Nat) : Place := ⟨[], room⟩

/-- Puts a piece after what is there, as much of it as there is room for. -/
def put (p : Place) (piece : List UInt8) : Place × Option WriteError :=
  if piece.length ≤ p.room then (⟨p.bytes ++ piece, p.room - piece.length⟩, none)
  else (⟨p.bytes ++ piece.take p.room, 0⟩, some .noRoom)

/-- Puts pieces one after the other, up to the first that does not fit. -/
def putAll (p : Place) : List (List UInt8) → Place × Option WriteError
  | [] => (p, none)
  | piece :: pieces =>
    match p.put piece with
    | (after, none) => after.putAll pieces
    | (after, some e) => (after, some e)

theorem put_of_le {p : Place} {piece : List UInt8} (h : piece.length ≤ p.room) :
    p.put piece = (⟨p.bytes ++ piece, p.room - piece.length⟩, none) := by
  rw [put, if_pos h]

theorem put_of_lt {p : Place} {piece : List UInt8} (h : p.room < piece.length) :
    p.put piece = (⟨p.bytes ++ piece.take p.room, 0⟩, some .noRoom) := by
  rw [put, if_neg (Nat.not_le_of_lt h)]

/-- A piece that fits, and more bytes after it. -/
theorem put_append {p : Place} {piece : List UInt8} (h : piece.length ≤ p.room)
    (more : List UInt8) : p.put (piece ++ more) =
      (⟨p.bytes ++ piece, p.room - piece.length⟩ : Place).put more := by
  have hlength : (piece ++ more).length = piece.length + more.length := List.length_append
  by_cases hfits : (piece ++ more).length ≤ p.room
  · have hmore : more.length ≤ p.room - piece.length := by omega
    rw [put_of_le hfits, put_of_le hmore, hlength, List.append_assoc, Nat.sub_sub]
  · have hmore : p.room - piece.length < more.length := by omega
    rw [put_of_lt (Nat.lt_of_not_le hfits), put_of_lt hmore, List.take_append,
      List.take_of_length_le h, List.append_assoc]

/-- Into how many pieces the bytes are cut makes no difference. -/
theorem putAll_eq_put (pieces : List (List UInt8)) :
    ∀ p : Place, p.putAll pieces = p.put pieces.flatten := by
  induction pieces with
  | nil =>
    intro p
    rw [putAll, List.flatten_nil, put_of_le (Nat.zero_le _), List.append_nil]
    rfl
  | cons piece pieces ih =>
    intro p
    rw [putAll, List.flatten_cons]
    by_cases h : piece.length ≤ p.room
    · rw [put_append h, put_of_le h]
      exact ih _
    · have hlt : p.room < piece.length := Nat.lt_of_not_le h
      have hall : p.room < (piece ++ pieces.flatten).length := by
        rw [List.length_append]
        omega
      rw [put_of_lt hlt, put_of_lt hall, List.take_append_of_le_length (Nat.le_of_lt hlt)]

end Place

/-- The pieces of a bundle, in the order in which they are put down. -/
def pieces (code : Code) : List (List UInt8) :=
  [magic, word (manifest code).length, manifest code, word (body code).length, body code]

theorem flatten_pieces (code : Code) : (pieces code).flatten = encode code := by
  simp [pieces, encode, framed]

theorem unlimited_of_short {code : Code} (hmanifest : IsShort (manifest code))
    (hbody : IsShort (body code)) : unlimited code = ⟨encode code, none⟩ := by
  unfold IsShort at hmanifest hbody
  rw [unlimited, if_pos hmanifest, if_pos hbody]

/-- A bundle is written piece by piece. -/
theorem write_eq_putAll {code : Code} (hmanifest : IsShort (manifest code))
    (hbody : IsShort (body code)) (room : Nat) :
    (write (some room) code).value =
      ⟨((Place.empty room).putAll (pieces code)).1.bytes,
        ((Place.empty room).putAll (pieces code)).2⟩ := by
  have hvalue : (write (some room) code).value =
      (⟨encode code, none⟩ : Written).fit (some room) := by
    rw [write, unlimited_of_short hmanifest hbody]
    split <;> rfl
  rw [hvalue, Place.putAll_eq_put, flatten_pieces, Written.fit]
  by_cases h : (encode code).length ≤ room
  · rw [Place.put_of_le h]
    simp only [if_pos h]
    rfl
  · rw [Place.put_of_lt (Nat.lt_of_not_le h)]
    simp only [if_neg h]
    rfl

/-! ### What was begun -/

/-- A frame is not read before it is whole. -/
theorem read_of_isBeginning_frame {bytes first second : List UInt8} (h : IsShort first)
    (h' : IsShort second) (hb : IsBeginning bytes (frame first second)) :
    ∃ e, e.kind = .unexpectedEof ∧ read bytes = .error e := by
  by_cases hlt : bytes.length < 4
  · exact ⟨.ended, rfl, read_of_length_lt hlt⟩
  · have hmagic : magic <+: bytes := by
      have hframe : magic <+: frame first second := by
        unfold frame
        rw [List.append_assoc]
        exact List.prefix_append _ _
      exact List.prefix_of_prefix_length_le hframe hb.1 (Nat.le_of_not_lt hlt)
    exact read_of_isBeginning hmagic h h' hb

theorem isBeginning_take {bytes : List UInt8} {room : Nat} (h : room < bytes.length) :
    IsBeginning (bytes.take room) bytes := by
  refine ⟨List.take_prefix room bytes, ?_⟩
  intro he
  have hlength := congrArg List.length he
  rw [List.length_take] at hlength
  omega

/-- With room for the whole bundle it is written in full and this is reported. With less room
writing fails for want of room, nothing is reported, and the bytes that were written are as many of
the first ones of the bundle as there was room for; read as a bundle they end too early. In both
cases the outcome is that of putting the pieces down one by one. -/
theorem write_in_room {code : Code} (hmanifest : IsShort (manifest code))
    (hbody : IsShort (body code)) (room : Nat) :
    (write none code).value = ⟨encode code, none⟩ ∧
    (write (some room) code).value =
      ⟨((Place.empty room).putAll (pieces code)).1.bytes,
        ((Place.empty room).putAll (pieces code)).2⟩ ∧
    ((encode code).length ≤ room →
      write (some room) code =
        ⟨[.bundleWritten code.instructions.length (body code).length], ⟨encode code, none⟩⟩) ∧
    (room < (encode code).length →
      ∃ w e, write (some room) code = ⟨[], w⟩ ∧
        w.failure?.map WriteError.kind = some .writeZero ∧
        w.bytes = (encode code).take room ∧ w.bytes.length = room ∧
        read w.bytes = .error e ∧ e.kind = .unexpectedEof) := by
  have hwhole := unlimited_of_short hmanifest hbody
  refine ⟨write_value_of_short hmanifest hbody, write_eq_putAll hmanifest hbody room, ?_, ?_⟩
  · intro hle
    have hfit : (unlimited code).fit (some room) = ⟨encode code, none⟩ := by
      rw [hwhole, Written.fit]
      simp only [if_pos hle]
    simp only [write, hfit]
  · intro hlt
    have hfit : (unlimited code).fit (some room) =
        ⟨(encode code).take room, some .noRoom⟩ := by
      rw [hwhole, Written.fit]
      simp only [if_neg (Nat.not_le_of_lt hlt)]
    have hbegun : IsBeginning ((encode code).take room) (frame (manifest code) (body code)) :=
      isBeginning_take hlt
    obtain ⟨e, hkind, he⟩ := read_of_isBeginning_frame hmanifest hbody hbegun
    refine ⟨⟨(encode code).take room, some .noRoom⟩, e, ?_, rfl, rfl, ?_, he, hkind⟩
    · simp only [write, hfit]
    · exact List.length_take_of_le (Nat.le_of_lt hlt)

/-- The room ends after two bytes of the length of the manifest. -/
theorem write_in_room_length :
    ∃ w e, write (some 6) (.ofInstructions [.integer (-1), .drop]) = ⟨[], w⟩ ∧
      w.failure?.map WriteError.kind = some .writeZero ∧
      w.bytes = [0x4D, 0x45, 0x52, 0x43, 0x51, 0x00] ∧
      read w.bytes = .error e ∧ e.kind = .unexpectedEof := by
  have hmanifest : IsShort (manifest (.ofInstructions [.integer (-1), .drop])) := by
    unfold IsShort
    decide +kernel
  have hbody : IsShort (body (.ofInstructions [.integer (-1), .drop])) := by
    unfold IsShort
    decide +kernel
  have hlt : 6 < (encode (.ofInstructions [.integer (-1), .drop])).length := by decide +kernel
  have hbytes : (encode (.ofInstructions [.integer (-1), .drop])).take 6 =
      [0x4D, 0x45, 0x52, 0x43, 0x51, 0x00] := by decide +kernel
  obtain ⟨-, -, -, hshort⟩ := write_in_room hmanifest hbody 6
  obtain ⟨w, e, hw, hfailure, htake, -, hread, hkind⟩ := hshort hlt
  exact ⟨w, e, hw, hfailure, htake.trans hbytes, hread, hkind⟩

end Bundle
end StackScript
