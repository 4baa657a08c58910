/-
# Listings show code faithfully

A listing has one line for each instruction: the text of the instruction, two blanks further in for
every block that is open before it. The marks of compiled code are well nested, so an end mark
always has a block to end and the indentation is the number of open blocks.

Nothing in the text of an instruction can be taken for the end of a line. The names of functions are
words, and in a quoted text the end of a line is written as an escape. A line can therefore be read
back: the blanks before it are no part of it, since the text begins with the name of the
instruction, the name ends at the first blank, and what follows is a number, a word and a number, or
a quoted text that can be read back character by character (`unescape`). So the whole listing is
read back, and no two codes have the same listing.

Key definitions: `unescape`, `Instr.ofLine?`, `Instr.Listable`, `listingLines`, `readListing`.
Key theorems: `unquote_quoted`, `Instr.ofLine?_text`, `splitOn_listing`, `readListing_listing`,
`listing_faithful`.
-/
import StackScript.Code.Json
import StackScript.Code.Listing
import StackScript.Proofs.Literals
import StackScript.Proofs.Operands
import StackScript.Proofs.RoundTrip

namespace StackScript

/-! ### Quoted text is read back -/

/-- Where a reader of quoted text is. -/
inductive Quoting where
  /-- Outside of escapes. -/
  | plain
  /-- After a backslash. -/
  | escape
  /-- In a code point, after digits of this value. -/
  | point (value : Nat)

/-- The character of an escape of one letter; a quote or a backslash stands for itself. -/
def shortEscape (c : Char) : Char :=
  if c = '0' then Char.ofNat 0
  else if c = 't' then '\t'
  else if c = 'r' then '\r'
  else if c = 'n' then '\n'
  else c

/-- Reads the characters between quotes. -/
def unescape : Quoting → List Char → List Char
  | _, [] => []
  | .plain, c :: cs => if c = '\\' then unescape .escape cs else c :: unescape .plain cs
  | .escape, c :: cs =>
    if c = 'u' then unescape (.point 0) cs else shortEscape c :: unescape .plain cs
  | .point n, c :: cs =>
    if c = '\x7d' then Char.ofNat n :: unescape .plain cs
    else if c = '\x7b' then unescape (.point n) cs
    else unescape (.point (n * 16 + (hexValue? c).getD 0)) cs

/-- A character is written as a backslash and one more, by code point, or as it is. -/
theorem quotedChar_cases (c : Char) :
    (∃ d, d ≠ 'u' ∧ d ≠ '\n' ∧ shortEscape d = c ∧ quotedChar c = ['\\', d]) ∨
    quotedChar c = ['\\', 'u', '\x7b'] ++ hex c.toNat ++ ['\x7d'] ∨
    (c ≠ '\\' ∧ c ≠ '\n' ∧ quotedChar c = [c]) := by
  unfold quotedChar
  by_cases h₁ : c = Char.ofNat 0
  · exact .inl ⟨'0', by decide, by decide, by rw [h₁]; rfl, if_pos h₁⟩
  rw [if_neg h₁]
  by_cases h₂ : c = '\t'
  · exact .inl ⟨'t', by decide, by decide, by rw [h₂]; rfl, if_pos h₂⟩
  rw [if_neg h₂]
  by_cases h₃ : c = '\r'
  · exact .inl ⟨'r', by decide, by decide, by rw [h₃]; rfl, if_pos h₃⟩
  rw [if_neg h₃]
  by_cases h₄ : c = '\n'
  · exact .inl ⟨'n', by decide, by decide, by rw [h₄]; rfl, if_pos h₄⟩
  rw [if_neg h₄]
  by_cases h₅ : c = '"'
  · exact .inl ⟨'"', by decide, by decide, by rw [h₅]; rfl, if_pos h₅⟩
  rw [if_neg h₅]
  by_cases h₆ : c = '\\'
  · exact .inl ⟨'\\', by decide, by decide, by rw [h₆]; rfl, if_pos h₆⟩
  rw [if_neg h₆]
  by_cases h₇ : (isExtender c || !isPrintable c) = true
  · exact .inr (.inl (if_pos h₇))
  · exact .inr (.inr ⟨h₆, h₄, if_neg h₇⟩)

theorem hexChar_ne : ∀ d < 16, hexChar d ≠ '\x7b' ∧ hexChar d ≠ '\x7d' ∧ hexChar d ≠ '\n' := by
  decide

theorem unescape_hexChar {d : Nat} (h : d < 16) (n : Nat) (rest : List Char) :
    unescape (.point n) (hexChar d :: rest) = unescape (.point (n * 16 + d)) rest := by
  obtain ⟨hopen, hclose, -⟩ := hexChar_ne d h
  rw [unescape, if_neg hclose, if_neg hopen, (hexChar_facts d h).1]
  rfl

/-- The digits of a code point are read as its value. -/
theorem unescape_hex (n : Nat) (rest : List Char) :
    unescape (.point 0) (hex n ++ rest) = unescape (.point n) rest := by
  fun_induction hex n generalizing rest with
  | case1 n h =>
    rw [List.singleton_append, unescape_hexChar h]
    simp
  | case2 n h ih =>
    have hdigit : n % 16 < 16 := by omega
    have hvalue : n / 16 * 16 + n % 16 = n := by omega
    rw [List.append_assoc, ih, List.singleton_append, unescape_hexChar hdigit, hvalue]

theorem unescape_quotedChar (c : Char) (rest : List Char) :
    unescape .plain (quotedChar c ++ rest) = c :: unescape .plain rest := by
  rcases quotedChar_cases c with ⟨d, hu, -, hd, he⟩ | he | ⟨hb, -, he⟩
  · rw [he]
    simp [unescape, hu, hd]
  · rw [he, List.append_assoc, List.append_assoc]
    simp only [List.cons_append, List.nil_append, unescape, if_true]
    rw [if_neg (by decide), unescape_hex, unescape, if_pos rfl, Char.ofNat_toNat]
  · rw [he]
    simp [unescape, hb]

/-- A text is read back from its characters as they are written in quotes. -/
theorem unescape_flatMap (cs : List Char) : unescape .plain (cs.flatMap quotedChar) = cs := by
  induction cs with
  | nil => rfl
  | cons c cs ih => rw [List.flatMap_cons, unescape_quotedChar, ih]

theorem newline_not_mem_hex (n : Nat) : '\n' ∉ hex n := by
  fun_induction hex n with
  | case1 n h =>
    have hne := (hexChar_ne n h).2.2
    simpa using hne.symm
  | case2 n h ih =>
    have hne := (hexChar_ne (n % 16) (by omega)).2.2
    simp [ih, hne.symm]

theorem newline_not_mem_quotedChar (c : Char) : '\n' ∉ quotedChar c := by
  rcases quotedChar_cases c with ⟨d, -, hd, -, he⟩ | he | ⟨-, hc, he⟩
  · rw [he]
    simp [hd.symm]
  · rw [he]
    simp [newline_not_mem_hex]
  · rw [he]
    simpa using hc.symm

theorem toList_quoted (s : String) :
    (quoted s).toList = '"' :: (s.toList.flatMap quotedChar ++ ['"']) := by
  simp [quoted]

theorem newline_not_mem_quoted (s : String) : '\n' ∉ (quoted s).toList := by
  rw [toList_quoted]
  simp [newline_not_mem_quotedChar]

/-- The text inside of quotes. -/
def unquote (cs : List Char) : String := String.ofList (unescape .plain cs.tail.dropLast)

theorem unquote_quoted (s : String) : unquote (quoted s).toList = s := by
  rw [unquote, toList_quoted, List.tail_cons, List.dropLast_concat, unescape_flatMap,
    String.ofList_toList]

/-! ### Instructions are read back -/

/-- The integer that digits stand for, perhaps after a minus sign. -/
def signedValue (cs : List Char) : Int :=
  if cs.head? = some '-' then -(digitsValue cs.tail : Int) else digitsValue cs

theorem signedValue_signed (i : Int) : signedValue (signed i).toList = i := by
  unfold signed
  by_cases h : i < 0
  · have hminus : ("-" ++ decimal i.natAbs).toList = '-' :: digits i.natAbs := by
      simp [decimal]
    rw [if_pos h, hminus, signedValue, List.head?_cons, if_pos rfl, List.tail_cons,
      digitsValue_digits]
    omega
  · have hhead : (digits i.natAbs).head? ≠ some '-' := by
      intro hc
      have hdigit := isDigit_of_mem_digits i.natAbs '-' (List.mem_of_head? hc)
      revert hdigit
      decide
    rw [if_neg h, decimal, String.toList_ofList, signedValue, if_neg hhead, digitsValue_digits]
    omega

theorem newline_not_mem_digits (n : Nat) : '\n' ∉ digits n := by
  intro hmem
  have hdigit := isDigit_of_mem_digits n '\n' hmem
  revert hdigit
  decide

theorem newline_not_mem_signed (i : Int) : '\n' ∉ (signed i).toList := by
  unfold signed
  split <;> simp [decimal, newline_not_mem_digits]

/-- What stands before the first blank. -/
def firstWord (cs : List Char) : List Char := cs.takeWhile (· ≠ ' ')

/-- What stands after the first blank. -/
def afterWord (cs : List Char) : List Char := (cs.dropWhile (· ≠ ' ')).tail

theorem decide_ne_blank {word : List Char} (h : ' ' ∉ word) :
    ∀ c ∈ word, decide (c ≠ ' ') = true := by
  intro c hc
  have hne : c ≠ ' ' := fun he => h (he ▸ hc)
  simpa using hne

/-- A word is what stands before the first blank. -/
theorem firstWord_append {word : List Char} (h : ' ' ∉ word) (rest : List Char) :
    firstWord (word ++ ' ' :: rest) = word ∧ afterWord (word ++ ' ' :: rest) = rest := by
  have hword := decide_ne_blank h
  have hblank : ∀ c ∈ (' ' :: rest).head?, decide (c ≠ ' ') = false := by simp
  unfold firstWord afterWord
  rw [takeWhile_run hword hblank, dropWhile_run hword hblank]
  exact ⟨rfl, rfl⟩

theorem firstWord_self {word : List Char} (h : ' ' ∉ word) :
    firstWord word = word ∧ afterWord word = [] := by
  have hword := decide_ne_blank h
  have hend : ∀ c ∈ ([] : List Char).head?, decide (c ≠ ' ') = false := by simp
  have hrun := takeWhile_run hword hend
  have hdrop := dropWhile_run hword hend
  rw [List.append_nil] at hrun hdrop
  unfold firstWord afterWord
  rw [hrun, hdrop]
  exact ⟨rfl, rfl⟩

namespace Instr

/-- The name in an instruction. -/
def name? : Instr → Option String
  | define name _ | callKnown name _ => some name
  | _ => none

/-- A name in the instruction has no blanks and no ends of lines. -/
def Listable (i : Instr) : Prop := ∀ name ∈ i.name?, ' ' ∉ name.toList ∧ '\n' ∉ name.toList

/-- What stands after the name of an instruction. -/
def argument? : Instr → Option (List Char)
  | define name n | callKnown name n => some (name.toList ++ ' ' :: digits n)
  | callUnknown n | list n | getSlot n | setSlot n => some (digits n)
  | boolean value => some (if value then "true" else "false").toList
  | integer value => some (signed value.toInt).toList
  | string value => some (quoted value).toList
  | _ => none

theorem toList_text (i : Instr) :
    i.text.toList = i.label.toList ++ i.argument?.elim [] (' ' :: ·) := by
  have hone : ∀ label argument : String,
      (label ++ " " ++ argument).toList = label.toList ++ ' ' :: argument.toList := by
    intro label argument
    simp
  have hcount : ∀ (label : String) (n : Nat),
      (label ++ " " ++ decimal n).toList = label.toList ++ ' ' :: digits n := by
    intro label n
    simp [decimal]
  have hnamed : ∀ (label name : String) (n : Nat),
      (label ++ " " ++ name ++ " " ++ decimal n).toList =
        label.toList ++ ' ' :: (name.toList ++ ' ' :: digits n) := by
    intro label name n
    simp [decimal]
  cases i with
  | define name n => exact hnamed "DefineFunction" name n
  | callKnown name n => exact hnamed "CallKnown" name n
  | callUnknown n => exact hcount "CallUnknown" n
  | list n => exact hcount "ListConst" n
  | getSlot n => exact hcount "GetLocal" n
  | setSlot n => exact hcount "SetLocal" n
  | boolean value => exact hone "BooleanConst" _
  | integer value => exact hone "IntegerConst" _
  | string value => exact hone "StringConst" _
  | _ => exact (List.append_nil _).symm

theorem label_plain (i : Instr) :
    ' ' ∉ i.label.toList ∧ '\n' ∉ i.label.toList ∧ i.label.toList ≠ [] := by
  cases i <;> (simp only [label]; decide)

/-- The instruction of a word and a number after its name. -/
def ofWordAndCount (make : String → Nat → Instr) (argument : List Char) : Instr :=
  make (String.ofList (firstWord argument)) (digitsValue (afterWord argument))

/-- The instruction with a name and what stands after it. -/
def ofArgument? (name : String) (argument : List Char) : Option Instr :=
  match name with
  | "DefineFunction" => some (ofWordAndCount define argument)
  | "CallKnown" => some (ofWordAndCount callKnown argument)
  | "CallUnknown" => some (callUnknown (digitsValue argument))
  | "BooleanConst" => some (boolean (argument = "true".toList))
  | "IntegerConst" => some (integer (Int64.ofInt (signedValue argument)))
  | "StringConst" => some (string (unquote argument))
  | "ListConst" => some (list (digitsValue argument))
  | "GetLocal" => some (getSlot (digitsValue argument))
  | "SetLocal" => some (setSlot (digitsValue argument))
  | name => ofLabel? name

/-- The instruction of a line without the blanks before it. -/
def ofLine? (line : List Char) : Option Instr :=
  ofArgument? (String.ofList (firstWord line)) (afterWord line)

theorem ofWordAndCount_append {name : String} (h : ' ' ∉ name.toList)
    (make : String → Nat → Instr) (n : Nat) :
    ofWordAndCount make (name.toList ++ ' ' :: digits n) = make name n := by
  obtain ⟨hfirst, hafter⟩ := firstWord_append h (digits n)
  rw [ofWordAndCount, hfirst, hafter, String.ofList_toList, digitsValue_digits]

theorem ofArgument?_argument {i : Instr} (h : i.Listable) :
    ofArgument? i.label (i.argument?.getD []) = some i := by
  cases i with
  | define name n => exact congrArg some (ofWordAndCount_append (h name rfl).1 define n)
  | callKnown name n => exact congrArg some (ofWordAndCount_append (h name rfl).1 callKnown n)
  | callUnknown n => exact congrArg (fun k => some (callUnknown k)) (digitsValue_digits n)
  | list n => exact congrArg (fun k => some (list k)) (digitsValue_digits n)
  | getSlot n => exact congrArg (fun k => some (getSlot k)) (digitsValue_digits n)
  | setSlot n => exact congrArg (fun k => some (setSlot k)) (digitsValue_digits n)
  | boolean value => cases value <;> rfl
  | integer value =>
    have hvalue : Int64.ofInt (signedValue (signed value.toInt).toList) = value := by
      rw [signedValue_signed, Int64.ofInt_toInt]
    exact congrArg (fun v => some (integer v)) hvalue
  | string value => exact congrArg (fun v => some (string v)) (unquote_quoted value)
  | _ => rfl

/-- An instruction is read back from its text. -/
theorem ofLine?_text {i : Instr} (h : i.Listable) : ofLine? i.text.toList = some i := by
  have hread := ofArgument?_argument h
  have hlabel := i.label_plain.1
  rw [ofLine?, toList_text]
  cases ha : i.argument? with
  | none =>
    obtain ⟨hfirst, hafter⟩ := firstWord_self hlabel
    rw [ha] at hread
    simp only [Option.elim, List.append_nil]
    rw [hfirst, hafter, String.ofList_toList]
    exact hread
  | some argument =>
    obtain ⟨hfirst, hafter⟩ := firstWord_append hlabel argument
    rw [ha] at hread
    simp only [Option.elim]
    rw [hfirst, hafter, String.ofList_toList]
    exact hread

theorem newline_not_mem_argument {i : Instr} (h : i.Listable) :
    ∀ argument ∈ i.argument?, '\n' ∉ argument := by
  intro argument ha
  have hcount : ∀ n, '\n' ∉ digits n := newline_not_mem_digits
  have hnamed : ∀ (name : String) (n : Nat), '\n' ∉ name.toList →
      '\n' ∉ name.toList ++ ' ' :: digits n := by
    intro name n hname
    simp [hname, hcount n]
  cases i with
  | define name n => exact Option.some.inj ha ▸ hnamed name n (h name rfl).2
  | callKnown name n => exact Option.some.inj ha ▸ hnamed name n (h name rfl).2
  | callUnknown n => exact Option.some.inj ha ▸ hcount n
  | list n => exact Option.some.inj ha ▸ hcount n
  | getSlot n => exact Option.some.inj ha ▸ hcount n
  | setSlot n => exact Option.some.inj ha ▸ hcount n
  | boolean value =>
    obtain rfl := Option.some.inj ha
    cases value <;> decide
  | integer value => exact Option.some.inj ha ▸ newline_not_mem_signed value.toInt
  | string value => exact Option.some.inj ha ▸ newline_not_mem_quoted value
  | _ => cases ha

/-- The text of an instruction is one line. -/
theorem newline_not_mem_text {i : Instr} (h : i.Listable) : '\n' ∉ i.text.toList := by
  have hlabel := i.label_plain.2.1
  rw [toList_text]
  cases ha : i.argument? with
  | none => simpa using hlabel
  | some argument => simpa [hlabel] using newline_not_mem_argument h argument ha

end Instr

/-- All instructions of some code can be listed. -/
def AllListable (code : List Instr) : Prop := ∀ i ∈ code, i.Listable

/-! ### Lines of a listing -/

/-- In well-nested code no end mark comes before its start mark. -/
theorem Nested.count_le {p : Instr → Bool} {code : List Instr} (h : Nested p code) :
    code.count .endBlock = code.count .startBlock ∧
      ∀ pre post, code = pre ++ post → pre.count .endBlock ≤ pre.count .startBlock := by
  induction h with
  | nil =>
    refine ⟨rfl, fun pre post he => ?_⟩
    obtain ⟨rfl, -⟩ := List.append_eq_nil_iff.mp he.symm
    exact Nat.le_refl _
  | @plain i code hi _ _ ih =>
    obtain ⟨hs, he⟩ := Instr.ne_of_isMark hi
    obtain ⟨heq, hle⟩ := ih
    refine ⟨by simp [hs, he, heq], fun pre post hsplit => ?_⟩
    cases pre with
    | nil => exact Nat.le_refl _
    | cons j pre =>
      obtain ⟨rfl, hrest⟩ := List.cons.inj hsplit
      have := hle pre post hrest
      simpa [List.count_cons, hs, he] using this
  | @block inner code _ _ ih₁ ih₂ =>
    obtain ⟨heq₁, hle₁⟩ := ih₁
    obtain ⟨heq₂, hle₂⟩ := ih₂
    refine ⟨by simp [heq₁, heq₂]; omega, fun pre post hsplit => ?_⟩
    rcases List.append_eq_append_iff.mp hsplit with ⟨c, rfl, hc⟩ | ⟨c, hc, -⟩
    · cases c with
      | nil => simp [heq₁]
      | cons j c =>
        obtain ⟨rfl, hrest⟩ := List.cons.inj hc
        have := hle₂ c post hrest
        simp [heq₁]
        omega
    · cases pre with
      | nil => exact Nat.le_refl _
      | cons j pre =>
        obtain ⟨rfl, hrest⟩ := List.cons.inj hc
        have := hle₁ pre c hrest
        simp
        omega

/-- The number of blocks that are open after some code. -/
def openBlocks (code : List Instr) : Nat := code.count .startBlock - code.count .endBlock

/-- The line of an instruction that has some code before it. -/
def listingLine (before : List Instr) (i : Instr) : List Char :=
  List.replicate (2 * (openBlocks before - if i = .endBlock then 1 else 0)) ' ' ++ i.text.toList

/-- One line for each instruction, in order. -/
def listingLines (code : List Instr) : List (List Char) :=
  code.mapIdx fun k i => listingLine (code.take k) i

theorem newline_not_mem_listingLine {i : Instr} (h : i.Listable) (before : List Instr) :
    '\n' ∉ listingLine before i := by
  simp [listingLine, i.newline_not_mem_text h]

/-- What a listing begins with: the line of the first instruction. -/
theorem toList_listingFrom_cons {pre : List Instr} {i : Instr}
    (hle : pre.count .endBlock ≤ pre.count .startBlock) (rest : List Instr) :
    (listingFrom (openBlocks pre) (i :: rest)).toList =
      listingLine pre i ++ '\n' :: (listingFrom (openBlocks (pre ++ [i])) rest).toList := by
  have hnext : (if i = .startBlock then
      (if i = .endBlock then openBlocks pre - 1 else openBlocks pre) + 1
      else if i = .endBlock then openBlocks pre - 1 else openBlocks pre) =
      openBlocks (pre ++ [i]) := by
    unfold openBlocks
    rw [List.count_append, List.count_append, List.count_singleton, List.count_singleton]
    by_cases hs : i = .startBlock
    · subst hs
      simp
      omega
    · by_cases he : i = .endBlock
      · subst he
        simp
        omega
      · simp [hs, he]
  have hown : (if i = .endBlock then openBlocks pre - 1 else openBlocks pre) =
      openBlocks pre - if i = .endBlock then 1 else 0 := by
    split <;> rfl
  simp only [listingFrom]
  rw [hnext, hown, listingLine]
  simp

/-- The lines of the listing of code, where an end mark always has a block to end. -/
theorem splitOn_listingFrom {code : List Instr} (hcode : AllListable code)
    (hle : ∀ pre post, code = pre ++ post → pre.count .endBlock ≤ pre.count .startBlock) :
    ∀ rest pre, code = pre ++ rest →
      (listingFrom (openBlocks pre) rest).toList.splitOn '\n' =
        (rest.mapIdx fun k i => listingLine (pre ++ rest.take k) i) ++ [[]]
  | [], pre, _ => List.splitOn_nil ..
  | i :: rest, pre, h => by
    have hi : i.Listable := hcode i (by simp [h])
    have ih := splitOn_listingFrom hcode hle rest (pre ++ [i]) (by simp [h])
    rw [toList_listingFrom_cons (hle pre _ h),
      List.splitOn_append_cons_self_of_not_mem (newline_not_mem_listingLine hi pre), ih]
    simp

theorem splitOn_listing {p : Instr → Bool} {code : List Instr} (hcode : AllListable code)
    (h : Nested p code) :
    (listing code).toList.splitOn '\n' = listingLines code ++ [[]] :=
  splitOn_listingFrom hcode h.count_le.2 code [] rfl

/-- Reads the lines of a listing. What follows the last of them is no line. -/
def readListing (text : List Char) : List (Option Instr) :=
  (text.splitOn '\n').dropLast.map fun line => Instr.ofLine? (line.dropWhile (· = ' '))

theorem dropWhile_listingLine (before : List Instr) (i : Instr) :
    (listingLine before i).dropWhile (· = ' ') = i.text.toList := by
  refine dropWhile_run (by simp) fun c hc => ?_
  obtain ⟨hblank, -, hne⟩ := i.label_plain
  rw [i.toList_text, List.head?_append, List.head?_eq_some_head hne, Option.some_or] at hc
  obtain rfl := Option.some.inj hc
  have hc' : i.label.toList.head hne ≠ ' ' := fun he => hblank (he ▸ List.head_mem hne)
  simpa using hc'

/-- A listing is read back. -/
theorem readListing_listing {p : Instr → Bool} {code : List Instr}
    (hcode : AllListable code) (h : Nested p code) :
    readListing (listing code).toList = code.map some := by
  rw [readListing, splitOn_listing hcode h, List.dropLast_concat, listingLines]
  refine List.ext_getElem? fun k => ?_
  simp only [List.getElem?_map, List.getElem?_mapIdx, Option.map_map]
  cases hk : code[k]? with
  | none => rfl
  | some i =>
    have hi := hcode i (List.mem_of_getElem? hk)
    simp only [Option.map_some, Function.comp_apply]
    rw [dropWhile_listingLine, Instr.ofLine?_text hi]

/-! ### Compiled code -/

/-- A name is one word. -/
theorem IsName.one_word {name : String} (h : IsName name) :
    ' ' ∉ name.toList ∧ '\n' ∉ name.toList := by
  obtain ⟨⟨c, cs, hname, hc, hcs⟩, -⟩ := h
  have hword : ∀ d ∈ name.toList, isWordChar d = true := by
    rw [hname]
    exact List.forall_mem_cons.mpr ⟨by simp [isWordChar, hc], hcs⟩
  have hblank : ∀ d, isBlank d = true → d ∉ name.toList := by
    intro d hd hmem
    rw [isBlank_of_isWordChar (hword d hmem)] at hd
    cases hd
  exact ⟨hblank ' ' (by decide), hblank '\n' (by decide)⟩

/-- The names in compiled code are those of functions of the program and of routines. -/
theorem listable_of_compile {entry source : String} {code : Code}
    (h : (compile entry source).value = .ok code) : AllListable code.instructions := by
  intro i hi name hname
  cases i with
  | define n parameters =>
    obtain ⟨p, f, hp, hf, rfl, -⟩ := exists_function_of_compile h hi
    obtain rfl := Option.some.inj hname
    exact (wellFormed_of_parse_eq_ok hp _ hf).1.one_word
  | callKnown n arity =>
    have hknown := knownCalls_of_compile h _ hi _ rfl
    have hall : ∀ call ∈ routines, ' ' ∉ call.1.toList ∧ '\n' ∉ call.1.toList := by decide
    obtain rfl := Option.some.inj hname
    exact hall _ hknown
  | _ => cases hname

theorem nested_of_compile {entry source : String} {code : Code}
    (h : (compile entry source).value = .ok code) : WellNested code.instructions := by
  obtain ⟨p, -, hlayout⟩ := compile_eq_ok h
  exact hlayout.outline.1

/-- The listing of compiled code. (1) It has a line for each instruction, each with an end, and
nothing after the last. A line is the text of its instruction after two blanks for each block that
is open before it, less one for an end mark. (2) This is never a number below zero: before an
instruction there are not more end marks than start marks, and before an end mark there are less.
(3) Other compiled code has another listing. -/
theorem listing_faithful {entry entry' source source' : String} {code code' : Code}
    (h : (compile entry source).value = .ok code)
    (h' : (compile entry' source').value = .ok code') :
    (listing code.instructions).toList.splitOn '\n' = listingLines code.instructions ++ [[]] ∧
    (∀ k i, code.instructions[k]? = some i →
      (code.instructions.take k).count .endBlock + (if i = .endBlock then 1 else 0) ≤
        (code.instructions.take k).count .startBlock) ∧
    (listing code.instructions = listing code'.instructions →
      code.instructions = code'.instructions) := by
  have hnested := nested_of_compile h
  refine ⟨splitOn_listing (listable_of_compile h) hnested, fun k i hk => ?_, fun heq => ?_⟩
  · obtain ⟨hlt, rfl⟩ := List.getElem?_eq_some_iff.mp hk
    have hle := hnested.count_le.2 _ _ (List.take_append_drop k code.instructions).symm
    have hnext := hnested.count_le.2 _ _ (List.take_append_drop (k + 1) code.instructions).symm
    rw [List.take_succ_eq_append_getElem hlt, List.count_append, List.count_append] at hnext
    by_cases he : code.instructions[k] = .endBlock
    · rw [if_pos he]
      simpa [he] using hnext
    · rw [if_neg he]
      exact hle
  · have hread := readListing_listing (listable_of_compile h) hnested
    rw [heq, readListing_listing (listable_of_compile h') (nested_of_compile h')] at hread
    exact (List.map_inj_right fun _ _ => Option.some.inj).mp hread.symm

/-- A text of two lines and a quote, with escapes in one source and without in the other. -/
theorem listing_faithful_quoted : ∃ code code',
    (compile "main"
      "function f(m) \x7bif(m) \x7breturn \"a\\n\\\"  b\";\x7d\x7d").value = .ok code ∧
    (compile "g"
      "function f(m) \x7bif(m) \x7breturn \"a\n\\x22  b\";\x7d else \x7b\x7d\x7d").value = .ok code' ∧
    (listing code.instructions).toList.splitOn '\n' = ["StartBlock".toList, "  GetLocal 0".toList,
      "  StartBlock".toList, "    StringConst \"a\\n\\\"  b\"".toList, "    Return".toList,
      "  EndBlock".toList, "  StartBlock".toList, "  EndBlock".toList, "  If".toList,
      "  NullConst".toList, "  Return".toList, "EndBlock".toList, "DefineFunction f 1".toList, []] ∧
    code.instructions = code'.instructions := by
  have h : (compile "main"
      "function f(m) \x7bif(m) \x7breturn \"a\\n\\\"  b\";\x7d\x7d").value.toOption =
      some (.ofInstructions [.startBlock, .getSlot 0, .startBlock, .string "a\n\"  b", .ret,
        .endBlock, .startBlock, .endBlock, .choose, .null, .ret, .endBlock, .define "f" 1]) := by
    decide +kernel
  have h' : (compile "g"
      "function f(m) \x7bif(m) \x7breturn \"a\n\\x22  b\";\x7d else \x7b\x7d\x7d").value.toOption =
      some (.ofInstructions [.startBlock, .getSlot 0, .startBlock, .string "a\n\"  b", .ret,
        .endBlock, .startBlock, .endBlock, .choose, .null, .ret, .endBlock, .define "f" 1]) := by
    decide +kernel
  have hok := compile_eq_ok_of_toOption h
  have hok' := compile_eq_ok_of_toOption h'
  obtain ⟨hlines, -, hequal⟩ := listing_faithful hok hok'
  refine ⟨_, _, hok, hok', hlines.trans ?_, hequal rfl⟩
  decide +kernel

end StackScript
