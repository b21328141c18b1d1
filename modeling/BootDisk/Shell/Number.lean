import BootDisk.Shell.Octets

/-!
# Whole numbers in texts

How the shell and its commands read whole numbers: blanks and a sign may come first, sixteen digits count after `0x` and eight after a
zero where the base is left open. A number is kept within 64 bits; one that is beyond them is the nearest that fits.
-/

namespace BootDisk.Shell

/-- What was read of a number: its value, whether it had to be brought within bounds, whether there were any digits, and what is behind
them. -/
structure NumberRead where
  value : Int
  beyond : Bool
  any : Bool
  rest : Octets
  deriving Repr, Inhabited

namespace Number

/-- The least number. -/
def least : Int := -0x8000000000000000

/-- The greatest number. -/
def greatest : Int := 0x7fffffffffffffff

/-- The value of a digit, if it is one in a base. -/
def digit? (base : Nat) (c : Char) : Option Nat :=
  let v :=
    if c.isDigit then c.toNat - 48 else if c.isLower then c.toNat - 87 else if c.isUpper then c.toNat - 55 else base
  if v < base then some v else none

/-- The value of the digits at the front in a base. -/
def valueOf (base : Nat) (os : Octets) : Nat :=
  os.foldl (fun n c => base * n + (digit? base c).getD 0) 0

/-- Whether octets begin with the sign of base sixteen and a digit of it. -/
def isSixteen : Octets → Bool
  | '0' :: x :: c :: _ => (x == 'x' || x == 'X') && (digit? 16 c).isSome
  | _ => false

/-- The base that a number is written in, and its digits. -/
def withBase (base : Option Nat) (os : Octets) : Nat × Octets :=
  match base with
  | some b => if b = 16 ∧ isSixteen os then (16, os.drop 2) else (b, os)
  | none => if isSixteen os then (16, os.drop 2) else if os.head? = some '0' then (8, os) else (10, os)

/-- Reads a number at the front, in a base or in the base it asks for itself, within bounds. -/
def readWithin (lo hi : Int) (base : Option Nat) (os : Octets) : NumberRead :=
  let inner := os.dropWhile isSpace
  let (negative, digits) :=
    match inner with
    | '-' :: rest => (true, rest)
    | '+' :: rest => (false, rest)
    | rest => (false, rest)
  let (base, digits) := withBase base digits
  let taken := digits.takeWhile fun c => (digit? base c).isSome
  let size : Int := valueOf base taken
  let value := if negative then -size else size
  if taken = [] then ⟨0, false, false, os⟩
  else ⟨max lo (min hi value), value < lo || hi < value, true, digits.drop taken.length⟩

/-- Reads a number at the front. -/
def read (base : Option Nat) (os : Octets) : NumberRead :=
  readWithin least greatest base os

/-- The number that octets spell, with blanks around it; none if there is anything else. Where the base is left open, nothing at all
counts as 0. -/
def whole? (base : Option Nat) (os : Octets) : Option Int :=
  let r := read base os
  if r.beyond then none
  else if base.isSome ∧ ¬ r.any then none
  else if (r.rest.dropWhile isSpace) = [] then some r.value
  else none

/-- The number from 0 up to the greatest of 31 bits that octets spell. -/
def count? (os : Octets) : Option Nat :=
  match whole? (some 10) os with
  | some n => if 0 ≤ n ∧ n < 0x80000000 then some n.toNat else none
  | none => none

end Number

/-- The number that octets spell, if they are digits. -/
def toNat? (os : Octets) : Option Nat :=
  if os = [] ∨ os.any (fun c => !c.isDigit) then none else some (os.foldl (fun n c => 10 * n + (c.toNat - 48)) 0)

end BootDisk.Shell
