import BootDisk.Text.Utf8

/-!
# Octets

The shell works on bytes, whatever they mean as text. A byte is kept as the character of the same number, so that the shell's own signs
can be written as what they are.
-/

namespace BootDisk.Shell

/-- Bytes, each as the character of its number. -/
abbrev Octets := List Char

/-- Bytes as octets. -/
def ofBytes (bytes : List UInt8) : Octets :=
  bytes.map fun b => Char.ofNat b.toNat

/-- The bytes of octets. -/
def toBytes (os : Octets) : List UInt8 :=
  os.map fun c => UInt8.ofNat c.toNat

/-- The octets of a text. -/
def ofText (s : String) : Octets :=
  ofBytes (Text.encode s)

/-- The text that octets stand for. -/
def toText (os : Octets) : String :=
  Text.decodeLossy (toBytes os)

/-- The digits of a number. -/
def ofNat (n : Nat) : Octets :=
  Nat.toDigits 10 n

/-- The digits of a number, with its sign if it is negative. -/
def ofInt (n : Int) : Octets :=
  if n < 0 then '-' :: ofNat n.natAbs else ofNat n.natAbs

/-- The backquote, which is hard to tell from a quote where it is written. -/
def backquote : Char :=
  Char.ofNat 0x60

/-- The octets that count as blank around numbers. -/
def isSpace (c : Char) : Bool :=
  c == ' ' || (9 ≤ c.toNat && c.toNat ≤ 13)

/-- The characters that a name can begin with. -/
def isNameStart (c : Char) : Bool :=
  c.isAlpha || c == '_'

/-- The characters that a name can hold. -/
def isNameChar (c : Char) : Bool :=
  c.isAlphanum || c == '_'

/-- Whether octets are a name: letters, digits and underscores, no digit first. -/
def isName : Octets → Bool
  | [] => false
  | c :: cs => isNameStart c && cs.all isNameChar

/-- The name that octets begin with, and what is behind it. -/
def splitName (os : Octets) : Octets × Octets :=
  let name := if os.head?.any isNameStart then os.takeWhile isNameChar else []
  (name, os.drop name.length)

/-- A setting cut into its name and its value. -/
def splitSetting (os : Octets) : Octets × Option Octets :=
  let name := os.takeWhile (· ≠ '=')
  (name, (os.drop name.length).tail?)

/-- Whether octets come before others, or are the same: by their numbers, one after the other. -/
def precedes : Octets → Octets → Bool
  | [], _ => true
  | _ :: _, [] => false
  | a :: as, b :: bs => a.toNat < b.toNat || (a == b && precedes as bs)

/-- Arguments with a blank in between. -/
def joined (args : List Octets) : Octets :=
  [' '].intercalate args

/-- Octets between quotes so that the shell reads them back: quotes of the other kind stand around quotes. The pieces are cut off in at
most so many steps. -/
def quotedWithin : Nat → Octets → Octets
  | 0, _ => []
  | n + 1, os =>
    let plain := os.takeWhile (· ≠ '\'')
    let rest := os.drop plain.length
    let quotes := rest.takeWhile (· == '\'')
    let after := rest.drop quotes.length
    '\'' :: plain ++ '\'' ::
      if quotes = [] then [] else '"' :: quotes ++ '"' :: if after = [] then [] else quotedWithin n after

/-- Octets between quotes so that the shell reads them back. -/
def quoted (os : Octets) : Octets :=
  quotedWithin (os.length + 1) os

/-- The digits of an octal number at the front, at most so many, and what is behind them. -/
def takeOctal : Nat → Nat → Octets → Nat × Octets
  | 0, acc, rest => (acc, rest)
  | _ + 1, acc, [] => (acc, [])
  | n + 1, acc, c :: rest =>
    if '0' ≤ c ∧ c ≤ '7' then takeOctal n (8 * acc + (c.toNat - 48)) rest else (acc, c :: rest)

end BootDisk.Shell
