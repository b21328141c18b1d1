import BootDisk.Decimal.Binary64

/-!
# The shortest decimal of a double

A double is written with the fewest digits that still read back as the same double, and of the decimals with that many digits with
the one nearest to it. Two layouts of those digits are in use: one is always positional, the other turns to a power of ten for very
large and very small numbers.
-/

namespace BootDisk.Decimal

/-- Digits without their point: the number is `digits * 10 ^ power`. -/
structure Digits where
  digits : Nat
  power : Int
  deriving DecidableEq, Repr

/-- Takes the zeros at the end of the digits into the power, as far as the steps go. -/
def Digits.dropZeros : Nat → Digits → Digits
  | 0, d => d
  | n + 1, d => if d.digits % 10 = 0 ∧ d.digits ≠ 0 then dropZeros n ⟨d.digits / 10, d.power + 1⟩ else d

/-- The decimal with `n` digits in front of which `10 ^ top` is the first place, if one of the two next to `num / den` lies between the
bounds, the nearer one if both do. All fractions have the denominator `den`. -/
def onGrid (num low high den : Nat) (closed : Bool) (top : Int) (n : Nat) : Option Digits :=
  let power : Int := top - n + 1
  let up := Nat.pow 10 power.toNat
  let down := Nat.pow 10 (-power).toNat
  let below := (num * down) / (den * up)
  let inside (k : Nat) : Bool :=
    let here := k * den * up
    if closed then low * down ≤ here && here ≤ high * down else low * down < here && here < high * down
  let gapBelow := num * down - below * den * up
  let gapAbove := (below + 1) * den * up - num * down
  match inside below && below != 0, inside (below + 1) with
  | true, true => some ⟨if gapBelow ≤ gapAbove then below else below + 1, power⟩
  | true, false => some ⟨below, power⟩
  | false, true => some ⟨below + 1, power⟩
  | false, false => none

/-- The place of the first digit of `num / den`: the greatest `t` with `10 ^ t ≤ num / den`. -/
def firstPlace (num den : Nat) : Int :=
  if den ≤ num then ((Nat.toDigits 10 (num / den)).length : Int) - 1
  else Int.neg (Nat.toDigits 10 ((den - 1) / num)).length

/-- The shortest decimal that reads back as `significand * 2 ^ exponent`. -/
def shortest (significand : Nat) (exponent : Int) : Digits :=
  let (num, den) := scaled (4 * significand) (exponent - 2)
  let (unit, _) := scaled 1 (exponent - 2)
  let low := if significand = Nat.pow 2 52 ∧ Binary64.minExponent < exponent then num - unit else num - 2 * unit
  let high := num + 2 * unit
  let top := firstPlace num den
  let closed := significand % 2 = 0
  match (List.range 18).findSome? fun n => if n = 0 then none else onGrid num low high den closed top n with
  | some d => d.dropZeros 400
  | none => ⟨significand, exponent⟩

/-- The digits of a decimal as text. -/
def Digits.text (d : Digits) : List Char :=
  Nat.toDigits 10 d.digits

/-- Digits with the point after the first `n` of them, which are some but not all. -/
def withPoint (digits : List Char) (n : Nat) : List Char :=
  digits.take n ++ '.' :: digits.drop n

/-- A decimal in positional notation; a whole number has no point. -/
def Digits.positional (d : Digits) : List Char :=
  let size := d.text.length
  if 0 ≤ d.power then d.text ++ List.replicate d.power.toNat '0'
  else if (-d.power).toNat < size then withPoint d.text (size - (-d.power).toNat)
  else ['0', '.'] ++ List.replicate ((-d.power).toNat - size) '0' ++ d.text

/-- An exponent of ten behind its mark, always with a sign. -/
def exponentText (e : Int) : List Char :=
  'e' :: (if e < 0 then '-' else '+') :: Nat.toDigits 10 e.natAbs

/-- A decimal in positional notation as long as the point stands within the first sixteen places or at most five places before them,
and as a power of ten otherwise; a whole number in positional notation ends in `.0`. -/
def Digits.compact (d : Digits) : List Char :=
  let size := d.text.length
  let point : Int := size + d.power
  if 0 ≤ d.power ∧ point ≤ 16 then d.positional ++ ['.', '0']
  else if -5 < point ∧ point ≤ 16 then d.positional
  else
    let exponent := exponentText (point - 1)
    if size = 1 then d.text ++ exponent else withPoint d.text 1 ++ exponent

/-- Puts the sign in front. -/
def signed (negative : Bool) (cs : List Char) : List Char :=
  if negative then '-' :: cs else cs

namespace Binary64

/-- A double in positional notation with at least one place after the point. -/
def positional : Binary64 → String
  | finite s m e =>
    let cs := if m = 0 then ['0'] else (shortest m e).positional
    String.ofList (signed s (if cs.contains '.' then cs else cs ++ ['.', '0']))
  | infinite s => if s then "-inf" else "inf"
  | nan => "NaN"

/-- A double with the digits that `Digits.compact` lays out. -/
def compact : Binary64 → String
  | finite s m e => String.ofList (signed s (if m = 0 then ['0', '.', '0'] else (shortest m e).compact))
  | infinite s => if s then "-inf" else "inf"
  | nan => "NaN"

end Binary64

end BootDisk.Decimal
