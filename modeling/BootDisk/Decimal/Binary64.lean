/-!
# Double-precision numbers

A double as an exact number: a sign and a whole significand times a power of two. Rounding goes to the nearest double and, half way
between two, to the one with the even significand; it is done on whole numbers, so nothing is lost on the way.
-/

namespace BootDisk.Decimal

/-- A double. A finite one is `significand * 2 ^ exponent`, with a significand below 2 ^ 53 and an exponent of at least -1074. -/
inductive Binary64 where
  | finite (negative : Bool) (significand : Nat) (exponent : Int)
  | infinite (negative : Bool)
  | nan
  deriving DecidableEq, Repr

/-- The whole number nearest to `num / den`, the even one of two that are equally near. -/
def roundDiv (num den : Nat) : Nat :=
  let q := num / den
  let twice := 2 * (num % den)
  if twice < den then q else if den < twice then q + 1 else if q % 2 = 0 then q else q + 1

/-- `n * 2 ^ e` as a fraction of whole numbers. -/
def scaled (n : Nat) (e : Int) : Nat × Nat :=
  (n * Nat.pow 2 e.toNat, Nat.pow 2 (-e).toNat)

namespace Binary64

/-- The lowest exponent of a double. -/
def minExponent : Int := -1074

/-- The highest exponent of a finite double. -/
def maxExponent : Int := 971

/-- The double nearest to `num / den`; past the greatest finite one it is infinite. -/
def ofRatio (negative : Bool) (num den : Nat) : Binary64 :=
  if num = 0 then finite negative 0 minExponent
  else
    let guess : Int := max ((num.log2 : Int) - (den.log2 : Int) - 53) minExponent
    let atExponent (e : Int) : Nat × Nat := (num * Nat.pow 2 (-e).toNat, den * Nat.pow 2 e.toNat)
    let (n, d) := atExponent guess
    let e := if n / d < Nat.pow 2 53 then guess else guess + 1
    let (n, d) := atExponent e
    let m := roundDiv n d
    let (m, e) := if m = Nat.pow 2 53 then (Nat.pow 2 52, e + 1) else (m, e)
    if maxExponent < e then infinite negative else finite negative m e

/-- The double nearest to `digits * 10 ^ power`. A power that leaves the range in either direction is not worked out. -/
def ofDecimal (negative : Bool) (digits : Nat) (power : Int) : Binary64 :=
  let size : Int := (Nat.toDigits 10 digits).length
  if digits = 0 then finite negative 0 minExponent
  else if 400 < size + power then infinite negative
  else if size + power < -400 then finite negative 0 minExponent
  else ofRatio negative (digits * Nat.pow 10 power.toNat) (Nat.pow 10 (-power).toNat)

/-- The nearest double to the product. -/
def times : Binary64 → Binary64 → Binary64
  | finite s m e, finite t n f =>
    let (num, den) := scaled (m * n) (e + f)
    ofRatio (s != t) num den
  | infinite s, finite t n _ => if n = 0 then nan else infinite (s != t)
  | finite s m _, infinite t => if m = 0 then nan else infinite (s != t)
  | infinite s, infinite t => infinite (s != t)
  | nan, _ => nan
  | _, nan => nan

/-- The nearest double to the quotient. -/
def dividedBy : Binary64 → Binary64 → Binary64
  | finite s m e, finite t n f =>
    if n = 0 then (if m = 0 then nan else infinite (s != t))
    else
      let (num, den) := scaled m (e - f)
      ofRatio (s != t) num (den * n)
  | infinite s, finite t _ _ => infinite (s != t)
  | finite s _ _, infinite t => finite (s != t) 0 minExponent
  | infinite _, infinite _ => nan
  | nan, _ => nan
  | _, nan => nan

/-- Whether the double is a zero of either sign. -/
def isZero : Binary64 → Bool
  | finite _ m _ => m == 0
  | _ => false

/-- Whether the double is infinite, of either sign. -/
def isInfinite : Binary64 → Bool
  | infinite _ => true
  | _ => false

/-- The double of the other sign. -/
def negate : Binary64 → Binary64
  | finite s m e => finite (!s) m e
  | infinite s => infinite (!s)
  | nan => nan

end Binary64

end BootDisk.Decimal
