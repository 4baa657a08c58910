/-
# Bundles are read back from a stream

The JSON of an instruction says a value (`Instr.says_toJson`), and that value stands for the
instruction and no other (`Instr.ofJson?_json`), provided that its count has 64 bits, as counts of
the format do. So the body of a bundle is the code that it was made of. A section is read back
with exactly its own bytes, since its length fits in the four bytes before it. Hence a bundle is
read from the front of any bytes that begin with it and the rest is left, and several bundles are
read one after the other.

Key definitions: `Instr.json`, `Code.Storable`, `Bundle.stream`, `Bundle.ends`.
Key theorems: `Instr.ofJson?_json`, `Bundle.readSection_framed`, `Bundle.read_encode`,
`Bundle.readMany_stream`.
-/
import StackScript.Bundle
import StackScript.Proofs.JsonText

namespace StackScript

open Json (Says MemberSays quote writeObject writeArray)

/-! ### Instructions -/

namespace Instr

/-- The count that belongs to an instruction. -/
def count? : Instr → Option Nat
  | define _ n | callKnown _ n | callUnknown n | list n | getSlot n | setSlot n => some n
  | _ => none

/-- The count of an instruction, if it has one, has 64 bits. -/
def Fits (i : Instr) : Prop := ∀ n ∈ i.count?, n < 0x10000000000000000

instance (i : Instr) : Decidable i.Fits := inferInstanceAs (Decidable (∀ n ∈ i.count?, _))

/-- What belongs to an instruction, as a value. -/
def payloadValue? : Instr → Option Json
  | define name n =>
    some (.object [(some "name", .string (some name)), (some "param_count", .integer n)])
  | callKnown name n =>
    some (.object [(some "name", .string (some name)), (some "arity", .integer n)])
  | callUnknown n => some (.object [(some "arity", .integer n)])
  | boolean b => some (.boolean b)
  | integer i => some (.integer i.toInt)
  | string s => some (.string (some s))
  | list n => some (.object [(some "count", .integer n)])
  | getSlot n => some (.object [(some "slot", .integer n)])
  | setSlot n => some (.object [(some "slot", .integer n)])
  | _ => none

/-- The value that the JSON of an instruction says. -/
def json (i : Instr) : Json :=
  match i.payloadValue? with
  | none => .string (some i.label)
  | some v => .object [(some i.label, v)]

/-- A record of one count. -/
theorem says_count (field : String) (n : Nat) :
    Says (utf8 (writeObject [(field, decimal n)]).toList)
      (.object [(some field, .integer n)]) :=
  Json.says_writeObject (.cons ⟨rfl, Json.says_decimal n⟩ .nil)

/-- A record of a name and a count. -/
theorem says_named (name field : String) (n : Nat) :
    Says (utf8 (writeObject [("name", quote name), (field, decimal n)]).toList)
      (.object [(some "name", .string (some name)), (some field, .integer n)]) :=
  Json.says_writeObject
    (.cons ⟨rfl, Json.says_quote name⟩ (.cons ⟨rfl, Json.says_decimal n⟩ .nil))

/-- What belongs to an instruction is written if there is any, and says its value. -/
theorem says_payload? (i : Instr) :
    i.payload? = none ∧ i.payloadValue? = none ∨
      ∃ text v, i.payload? = some text ∧ i.payloadValue? = some v ∧ Says (utf8 text.toList) v := by
  cases i with
  | define name n => exact .inr ⟨_, _, rfl, rfl, says_named name "param_count" n⟩
  | callKnown name n => exact .inr ⟨_, _, rfl, rfl, says_named name "arity" n⟩
  | callUnknown n => exact .inr ⟨_, _, rfl, rfl, says_count "arity" n⟩
  | boolean b => exact .inr ⟨_, _, rfl, rfl, Json.says_boolean b⟩
  | integer v => exact .inr ⟨_, _, rfl, rfl, Json.says_signed v.toInt⟩
  | string s => exact .inr ⟨_, _, rfl, rfl, Json.says_quote s⟩
  | list n => exact .inr ⟨_, _, rfl, rfl, says_count "count" n⟩
  | getSlot n => exact .inr ⟨_, _, rfl, rfl, says_count "slot" n⟩
  | setSlot n => exact .inr ⟨_, _, rfl, rfl, says_count "slot" n⟩
  | _ => exact .inl ⟨rfl, rfl⟩

theorem says_toJson (i : Instr) : Says (utf8 i.toJson.toList) i.json := by
  unfold toJson json
  rcases i.says_payload? with ⟨hp, hv⟩ | ⟨text, v, hp, hv, hsays⟩
  · rw [hp, hv]
    exact Json.says_quote i.label
  · rw [hp, hv]
    exact Json.says_writeObject (.cons ⟨rfl, hsays⟩ .nil)

theorem count?_integer {n : Nat} (h : n < 0x10000000000000000) :
    (Json.integer n).count? = some n := by
  rw [Json.count?, if_pos ⟨Int.natCast_nonneg n, by omega⟩, Int.toNat_natCast]

theorem int64?_integer (v : Int64) : (Json.integer v.toInt).int64? = some v := by
  have hlo := v.le_toInt
  have hhi := v.toInt_lt
  rw [Json.int64?, if_pos ⟨by omega, by omega⟩, Int64.ofInt_toInt]

theorem ofCount?_object (field : String) (make : Nat → Instr) {n : Nat}
    (h : n < 0x10000000000000000) :
    ofCount? field make (.object [(some field, .integer n)]) = some (make n) := by
  have hf : (Json.object [(some field, .integer n)]).fields? [field] = some [.integer n] := by
    simp [Json.fields?, Json.member?]
  rw [ofCount?, hf]
  simp [count?_integer h]

theorem ofNamed?_object (field : String) (hne : "name" ≠ field) (make : String → Nat → Instr)
    (name : String) {n : Nat} (h : n < 0x10000000000000000) :
    ofNamed? field make
      (.object [(some "name", .string (some name)), (some field, .integer n)]) =
        some (make name n) := by
  have hf : (Json.object [(some "name", .string (some name)), (some field, .integer n)]).fields?
      ["name", field] = some [.string (some name), .integer n] := by
    simp [Json.fields?, Json.member?, hne, hne.symm]
  rw [ofNamed?, hf]
  simp [Json.text?, count?_integer h]

/-- The value that an instruction is written as stands for it. -/
theorem ofJson?_json {i : Instr} (h : i.Fits) : ofJson? i.json = some i := by
  cases i with
  | define name n =>
    simp only [json, payloadValue?, label, ofJson?, ofMember?]
    exact ofNamed?_object "param_count" (by decide) define name (h n rfl)
  | callKnown name n =>
    simp only [json, payloadValue?, label, ofJson?, ofMember?]
    exact ofNamed?_object "arity" (by decide) callKnown name (h n rfl)
  | callUnknown n =>
    simp only [json, payloadValue?, label, ofJson?, ofMember?]
    exact ofCount?_object "arity" callUnknown (h n rfl)
  | integer v =>
    simp only [json, payloadValue?, label, ofJson?, ofMember?, int64?_integer, Option.map_some]
  | list n =>
    simp only [json, payloadValue?, label, ofJson?, ofMember?]
    exact ofCount?_object "count" list (h n rfl)
  | getSlot n =>
    simp only [json, payloadValue?, label, ofJson?, ofMember?]
    exact ofCount?_object "slot" getSlot (h n rfl)
  | setSlot n =>
    simp only [json, payloadValue?, label, ofJson?, ofMember?]
    exact ofCount?_object "slot" setSlot (h n rfl)
  | _ => rfl

end Instr

/-! ### Code -/

namespace Code

/-- The value that the JSON of code says. -/
def json (code : Code) : Json :=
  .object [(some "version", .string (some code.version)),
    (some "instructions", .array (code.instructions.map Instr.json))]

theorem says_toJson (code : Code) : Says (utf8 code.toJson.toList) code.json := by
  have hinstructions : List.Forall₂ (fun t v => Says (utf8 (String.toList t)) v)
      (code.instructions.map Instr.toJson) (code.instructions.map Instr.json) := by
    rw [List.forall₂_map_left_iff, List.forall₂_map_right_iff, List.forall₂_same]
    exact fun i _ => i.says_toJson
  exact Json.says_writeObject (.cons ⟨rfl, Json.says_quote code.version⟩
    (.cons ⟨rfl, Json.says_writeArray hinstructions⟩ .nil))

theorem mapM_ofJson? : ∀ {is : List Instr}, (∀ i ∈ is, i.Fits) →
    (is.map Instr.json).mapM Instr.ofJson? = some is
  | [], _ => rfl
  | i :: is, h => by
    have hi := Instr.ofJson?_json (h i List.mem_cons_self)
    have his := mapM_ofJson? fun j hj => h j (List.mem_cons_of_mem i hj)
    rw [List.map_cons, List.mapM_cons, hi, his]
    rfl

/-- The value that code is written as stands for it. -/
theorem ofJson?_json {code : Code} (h : ∀ i ∈ code.instructions, i.Fits) :
    ofJson? code.json = some code := by
  have hf : code.json.fields? ["version", "instructions"] =
      some [.string (some code.version), .array (code.instructions.map Instr.json)] := by
    simp [json, Json.fields?, Json.member?]
  rw [ofJson?, hf]
  simp [Json.text?, Json.elements?, mapM_ofJson? h]

/-- Code that a bundle can hold: counts have 64 bits, and sections are short. -/
structure Storable (code : Code) : Prop where
  fits : ∀ i ∈ code.instructions, i.Fits
  manifest_lt : (Bundle.manifest code).length < Bundle.sectionLimit
  body_lt : (Bundle.body code).length < Bundle.sectionLimit

end Code

/-! ### Bundles -/

namespace Bundle

theorem decode?_body {code : Code} (h : ∀ i ∈ code.instructions, i.Fits) :
    decode? (body code) = some code := by
  rw [decode?, body, Json.read?_of_says code.says_toJson]
  exact Code.ofJson?_json h

/-- A length below the limit is read back from its four bytes. -/
theorem wordValue_word {n : Nat} (h : n < sectionLimit) :
    wordValue n.toUInt8 (n / 0x100).toUInt8 (n / 0x10000).toUInt8 (n / 0x1000000).toUInt8 = n := by
  have hb : ∀ m : Nat, m.toUInt8.toNat = m % 256 := fun m => UInt8.toNat_ofNat'
  unfold sectionLimit at h
  rw [wordValue, hb, hb, hb, hb]
  omega

/-- A section is read back, and what follows it is left. -/
theorem readSection_framed {bytes : List UInt8} (h : bytes.length < sectionLimit)
    (rest : List UInt8) : readSection (framed bytes ++ rest) = .ok (bytes, rest) := by
  rw [framed, word, List.append_assoc]
  simp only [List.cons_append, List.nil_append, readSection, wordValue_word h]
  rw [if_pos (by simp), List.take_left, List.drop_left]

/-- A bundle is the magic bytes and two sections, of which the second holds the code. -/
theorem read_magic {bytes first mid second rest : List UInt8} {code : Code}
    (h₁ : readSection bytes = .ok (first, mid)) (h₂ : readSection mid = .ok (second, rest))
    (hd : decode? second = some code) : read (magic ++ bytes) = .ok (code, rest) := by
  rw [magic]
  simp only [List.cons_append, List.nil_append, read, magic, if_true, h₁, h₂, hd, bind,
    Except.bind]

/-- A bundle is read back, and what follows it is left. -/
theorem read_encode {code : Code} (h : code.Storable) (rest : List UInt8) :
    read (encode code ++ rest) = .ok (code, rest) := by
  rw [encode, List.append_assoc, List.append_assoc]
  exact read_magic (readSection_framed h.manifest_lt _) (readSection_framed h.body_lt rest)
    (decode?_body h.fits)

/-- A bundle with short sections is written in full. -/
theorem write_value_of_short {code : Code} (hmanifest : (manifest code).length < sectionLimit)
    (hbody : (body code).length < sectionLimit) :
    (write none code).value = ⟨encode code, none⟩ := by
  have hu : unlimited code = ⟨encode code, none⟩ := by
    rw [unlimited, if_pos hmanifest, if_pos hbody]
  simp [write, Written.fit, hu]

theorem write_value {code : Code} (h : code.Storable) :
    (write none code).value = ⟨encode code, none⟩ :=
  write_value_of_short h.manifest_lt h.body_lt

/-- What is written of some bundles, one after the other. -/
def stream (codes : List Code) : List UInt8 :=
  codes.flatMap fun code => (write none code).value.bytes

theorem stream_cons {code : Code} (h : code.Storable) (codes : List Code) :
    stream (code :: codes) = encode code ++ stream codes := by
  rw [stream, List.flatMap_cons, write_value h]
  rfl

/-- Each code with the place where its bundle ends, if the first begins at `position`. -/
def ends (position : Nat) : List Code → List (Code × Nat)
  | [] => []
  | code :: codes =>
    let position := position + (write none code).value.bytes.length
    (code, position) :: ends position codes

/-- The first of some bundles is read, and the others are left. -/
theorem read_stream {code : Code} {codes : List Code} (h : code.Storable)
    (trailing : List UInt8) :
    read (stream (code :: codes) ++ trailing) = .ok (code, stream codes ++ trailing) := by
  rw [stream_cons h, List.append_assoc, read_encode h]

/-- Bundles are read one after the other, and then what follows them. -/
theorem readMany_append (more : Nat) (trailing : List UInt8) : ∀ (codes : List Code)
    (position : Nat), (∀ code ∈ codes, code.Storable) →
      readMany (codes.length + more) position (stream codes ++ trailing) =
        (ends position codes).map .ok ++
          readMany more (position + (stream codes).length) trailing
  | [], position, _ => by simp [stream, ends]
  | code :: codes, position, h => by
    have hcode := h code List.mem_cons_self
    have hlength : (stream (code :: codes) ++ trailing).length -
        (stream codes ++ trailing).length = (encode code).length := by
      rw [stream_cons hcode]
      simp only [List.length_append]
      omega
    have hends : position + (encode code).length + (stream codes).length =
        position + (stream (code :: codes)).length := by
      rw [stream_cons hcode, List.length_append, Nat.add_assoc]
    rw [List.length_cons, Nat.add_right_comm, readMany, read_stream hcode]
    simp only [hlength, ends, write_value hcode, List.map_cons, List.cons_append]
    rw [readMany_append more trailing codes _ fun c hc => h c (List.mem_cons_of_mem code hc), hends]

/-- All of some bundles are written in full. One reading for each of them, on what was written and
any bytes after that, gives the codes in order. Each reading takes the bytes of its own bundle and
leaves the others, and what is left in the end are the bytes after the bundles: any further reading
begins there. -/
theorem readMany_stream {codes : List Code} (h : ∀ code ∈ codes, code.Storable)
    (trailing : List UInt8) :
    (∀ code ∈ codes, (write none code).value.failure? = none) ∧
    (∀ before code after, codes = before ++ code :: after →
      stream codes = stream before ++ (write none code).value.bytes ++ stream after ∧
      read ((write none code).value.bytes ++ (stream after ++ trailing)) =
        .ok (code, stream after ++ trailing)) ∧
    ∀ position more, readMany (codes.length + more) position (stream codes ++ trailing) =
      (ends position codes).map .ok ++
        readMany more (position + (stream codes).length) trailing := by
  refine ⟨fun code hc => ?_, ?_, fun position more => readMany_append more trailing codes _ h⟩
  · rw [write_value (h code hc)]
  · rintro before code after rfl
    have hcode := h code (List.mem_append_right before List.mem_cons_self)
    constructor
    · simp [stream]
    · rw [write_value hcode]
      exact read_encode hcode _

/-- Quotes, escapes, a control character and characters of two and four bytes, the least integer
and the largest count; then a bundle without instructions, and bytes that look like a third. -/
theorem readMany_stream_extremes : ∃ codes : List Code,
    codes = [⟨"\"\\", [.string "\x00é😀\n", .integer (-0x8000000000000000),
      .getSlot 0xFFFFFFFFFFFFFFFF, .define "" 0]⟩, ⟨"", []⟩] ∧
    (∀ code ∈ codes, code.Storable) ∧
    (∀ code ∈ codes, (write none code).value.failure? = none) ∧
    readMany 2 0 (stream codes ++ magic) = (ends 0 codes).map .ok := by
  refine ⟨_, rfl, ?_⟩
  have h : ∀ code ∈ [(⟨"\"\\", [.string "\x00é😀\n", .integer (-0x8000000000000000),
      .getSlot 0xFFFFFFFFFFFFFFFF, .define "" 0]⟩ : Code), ⟨"", []⟩], code.Storable := by
    refine List.forall_mem_cons.mpr ⟨?_, List.forall_mem_singleton.mpr ?_⟩
    · exact ⟨by decide +kernel, by decide +kernel, by decide +kernel⟩
    · exact ⟨by decide +kernel, by decide +kernel, by decide +kernel⟩
  obtain ⟨hwritten, -, hmany⟩ := readMany_stream h magic
  exact ⟨h, hwritten, (hmany 0 0).trans (List.append_nil _)⟩

end Bundle

end StackScript
