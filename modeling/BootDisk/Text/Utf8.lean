/-!
# Text as bytes

UTF-8 both ways. A byte string is read one character at a time; where no character stands, the longest part that could still have
become one is passed over as a whole. The strict reading refuses such a part, the forgiving one shows it as U+FFFD.
-/

namespace BootDisk.Text

/-- The bytes of a text. -/
def encode (s : String) : List UInt8 :=
  s.toList.flatMap String.utf8EncodeChar

/-- A byte that continues a character. -/
def isContinuation (b : UInt8) : Bool :=
  0x80 ≤ b && b ≤ 0xBF

/-- The bytes that may follow a lead byte directly: the bounds leave out overlong forms, surrogates and everything past U+10FFFF. -/
def followRange (lead : UInt8) : UInt8 × UInt8 :=
  if lead == 0xE0 then (0xA0, 0xBF)
  else if lead == 0xED then (0x80, 0x9F)
  else if lead == 0xF0 then (0x90, 0xBF)
  else if lead == 0xF4 then (0x80, 0x8F)
  else (0x80, 0xBF)

/-- How many bytes a character with this lead byte has after it; none for a byte that starts no character. -/
def followCount (lead : UInt8) : Option Nat :=
  if lead < 0x80 then some 0
  else if 0xC2 ≤ lead && lead ≤ 0xDF then some 1
  else if 0xE0 ≤ lead && lead ≤ 0xEF then some 2
  else if 0xF0 ≤ lead && lead ≤ 0xF4 then some 3
  else none

/-- The payload of a lead byte. -/
def leadBits (lead : UInt8) : Nat :=
  if lead < 0x80 then lead.toNat
  else if lead < 0xE0 then lead.toNat % 32
  else if lead < 0xF0 then lead.toNat % 16
  else lead.toNat % 8

/-- Takes up to `n` continuation bytes and adds their payload; says also whether all `n` were there. -/
def takeContinuations : Nat → Nat → List UInt8 → Bool × Nat × List UInt8
  | 0, acc, rest => (true, acc, rest)
  | _ + 1, acc, [] => (false, acc, [])
  | n + 1, acc, b :: rest =>
    if isContinuation b then takeContinuations n (acc * 64 + b.toNat % 64) rest else (false, acc, b :: rest)

/-- Reads what a byte string starts with: a character, or `none` for a part that is no character; and the bytes after it. -/
def readChar (lead : UInt8) (rest : List UInt8) : Option Char × List UInt8 :=
  match followCount lead with
  | none => (none, rest)
  | some 0 => (some (Char.ofNat lead.toNat), rest)
  | some (n + 1) =>
    match rest with
    | [] => (none, [])
    | b :: rest' =>
      let (lo, hi) := followRange lead
      if lo ≤ b && b ≤ hi then
        match takeContinuations n (leadBits lead * 64 + b.toNat % 64) rest' with
        | (true, code, after) => (some (Char.ofNat code), after)
        | (false, _, after) => (none, after)
      else (none, b :: rest')

/-- Reads characters until the bytes or the steps run out; a step takes at least one byte, so as many steps as bytes are enough. -/
def readChars : Nat → List UInt8 → List (Option Char)
  | 0, _ => []
  | _ + 1, [] => []
  | n + 1, b :: rest =>
    let (c, after) := readChar b rest
    c :: readChars n after

/-- The text that the bytes hold, if every part of them is a character. -/
def decode? (bytes : List UInt8) : Option String :=
  ((readChars bytes.length bytes).mapM id).map String.ofList

/-- The text that the bytes hold, with U+FFFD for every part that is no character. -/
def decodeLossy (bytes : List UInt8) : String :=
  String.ofList ((readChars bytes.length bytes).map fun c => c.getD (Char.ofNat 0xFFFD))

end BootDisk.Text
