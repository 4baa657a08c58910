/-
# Bundles

A bundle holds code in a file: four magic bytes, then two sections, a manifest and the body. A
section is its length in four bytes, low byte first, and then its bytes. The manifest tells
about the code in JSON and is not looked at again; the body is the code in JSON.

Several bundles may follow one another, so reading gives what is left as well. Writing may run
out of room, and then as many bytes are written as fit.

Key definitions: `Bundle.encode`, `Bundle.write`, `Bundle.read`, `Bundle.ReadError.kind`.
-/
import StackScript.Code.Json
import StackScript.Json.Reader
import StackScript.Log
import StackScript.Outline

namespace StackScript
namespace Bundle

open Json (quote writeObject writeArray)

/-- The first bytes of a bundle. -/
def magic : List UInt8 := [0x4D, 0x45, 0x52, 0x43]

/-- The name of the format of the body. -/
def format : String := "mercenary-stack-v1"

/-- What the names of files with bundles end in. -/
def fileExtension : String := "mrcb"

/-- The kinds of failure of reading and writing bytes. -/
inductive ErrorKind where
  /-- The bytes end too early. -/
  | unexpectedEof
  /-- The bytes are not what they have to be. -/
  | invalidData
  /-- There is no room for more bytes. -/
  | writeZero
  /-- What is to be written cannot be. -/
  | invalidInput
  deriving DecidableEq, Repr

/-- The name of a kind. -/
def ErrorKind.name : ErrorKind → String
  | unexpectedEof => "UnexpectedEof"
  | invalidData => "InvalidData"
  | writeZero => "WriteZero"
  | invalidInput => "InvalidInput"

/-! ### Writing -/

/-- A number in four bytes, low byte first. -/
def word (n : Nat) : List UInt8 :=
  [n.toUInt8, (n / 0x100).toUInt8, (n / 0x10000).toUInt8, (n / 0x1000000).toUInt8]

/-- The number in four bytes, low byte first. -/
def wordValue (a b c d : UInt8) : Nat :=
  a.toNat + b.toNat * 0x100 + c.toNat * 0x10000 + d.toNat * 0x1000000

/-- Sections are shorter than this. -/
def sectionLimit : Nat := 0x100000000

/-- Bytes as a section. -/
def framed (bytes : List UInt8) : List UInt8 := word bytes.length ++ bytes

/-- The manifest of code. -/
def manifest (code : Code) : List UInt8 :=
  utf8 (writeObject
    [("format", quote format), ("functions", writeArray (code.functions.map quote)),
      ("instructions", decimal code.instructions.length), ("version", quote code.version)]).toList

/-- The body of code. -/
def body (code : Code) : List UInt8 := utf8 code.toJson.toList

/-- The bundle of code with short sections. -/
def encode (code : Code) : List UInt8 := magic ++ framed (manifest code) ++ framed (body code)

/-- Why a bundle was not written in full. -/
inductive WriteError where
  /-- The place to write to was full. -/
  | noRoom
  /-- A length does not fit in four bytes. -/
  | sectionTooLarge
  deriving DecidableEq, Repr

/-- The wording of an error. -/
def WriteError.message : WriteError → String
  | noRoom => "failed to write whole buffer"
  | sectionTooLarge => "bundle section too large"

/-- The kind of an error. -/
def WriteError.kind : WriteError → ErrorKind
  | noRoom => .writeZero
  | sectionTooLarge => .invalidInput

/-- The bytes that were written, and why there are no more. -/
structure Written where
  bytes : List UInt8
  failure? : Option WriteError
  deriving DecidableEq, Repr

/-- The bytes of a bundle up to a section that is too large. -/
def unlimited (code : Code) : Written :=
  if (manifest code).length < sectionLimit then
    if (body code).length < sectionLimit then ⟨encode code, none⟩
    else ⟨magic ++ framed (manifest code), some .sectionTooLarge⟩
  else ⟨magic, some .sectionTooLarge⟩

/-- Puts bytes where there is room for some number of them, or for all if no number is given. -/
def Written.fit (w : Written) (room? : Option Nat) : Written :=
  match room? with
  | none => w
  | some room => if w.bytes.length ≤ room then w else ⟨w.bytes.take room, some .noRoom⟩

/-- Writes the bundle of code where there may be little room, and reports success. -/
def write (room? : Option Nat) (code : Code) : Logged Written :=
  let w := (unlimited code).fit room?
  match w.failure? with
  | none => ⟨[.bundleWritten code.instructions.length (body code).length], w⟩
  | some _ => ⟨[], w⟩

/-! ### Reading -/

/-- Why there is no bundle at the front of some bytes. -/
inductive ReadError where
  /-- The bytes end inside the magic bytes or a length. -/
  | ended
  /-- The first four bytes are others. -/
  | wrongMagic (bytes : List UInt8)
  /-- The bytes end inside a section. -/
  | truncated (length present : Nat)
  /-- The body is not the code of a program. -/
  | malformed
  deriving DecidableEq, Repr

/-- Bytes in decimal, in brackets. -/
def byteList (bytes : List UInt8) : String :=
  "[" ++ Outline.commas (bytes.map fun b => decimal b.toNat) ++ "]"

/-- The wording of an error. -/
def ReadError.message : ReadError → String
  | ended => "failed to fill whole buffer"
  | wrongMagic bytes => "Invalid magic number: expected MERC, got " ++ byteList bytes
  | truncated length present =>
    "bundle section truncated: expected " ++ decimal length ++ " bytes, got " ++ decimal present
  | malformed => "malformed bundle body"

/-- The kind of an error. -/
def ReadError.kind : ReadError → ErrorKind
  | ended | truncated _ _ => .unexpectedEof
  | wrongMagic _ | malformed => .invalidData

/-- The bytes of a section, and what is left. -/
def readSection : List UInt8 → Except ReadError (List UInt8 × List UInt8)
  | a :: b :: c :: d :: bytes =>
    let length := wordValue a b c d
    if length ≤ bytes.length then .ok (bytes.take length, bytes.drop length)
    else .error (.truncated length bytes.length)
  | _ => .error .ended

/-- The code of a body. -/
def decode? (bytes : List UInt8) : Option Code := do
  let json ← Json.read? bytes
  Code.ofJson? json

/-- The code of the bundle at the front of some bytes, and what is left. -/
def read : List UInt8 → Except ReadError (Code × List UInt8)
  | a :: b :: c :: d :: bytes =>
    if [a, b, c, d] = magic then do
      let (_, bytes) ← readSection bytes
      let (section₂, bytes) ← readSection bytes
      match decode? section₂ with
      | some code => .ok (code, bytes)
      | none => .error .malformed
    else .error (.wrongMagic [a, b, c, d])
  | _ => .error .ended

/-- The bundles at the front of some bytes, each with the number of bytes read so far, up to
`count` of them or to the first error. -/
def readMany (count : Nat) (position : Nat) (bytes : List UInt8) :
    List (Except ReadError (Code × Nat)) :=
  match count with
  | 0 => []
  | count + 1 =>
    match read bytes with
    | .error e => [.error e]
    | .ok (code, rest) =>
      let position := position + (bytes.length - rest.length)
      .ok (code, position) :: readMany count position rest

end Bundle
end StackScript
