import BootDisk.Toml.Basic
import BootDisk.Text.Fields

/-!
# Bare values

Booleans, numbers, dates and times are written without quotes, in an unbroken run of letters, digits, signs, points and colons. This
module says which runs are such values and what they denote. An underscore may stand between two digits.
-/

namespace BootDisk.Toml

/-- What a bare value denotes. What date or time it is never matters. -/
inductive Bare where
  | integer (n : Int)
  | floating (x : Decimal.Binary64)
  | boolean (b : Bool)
  | moment
  deriving DecidableEq, Repr

/-- The characters of a bare value. -/
def isBareChar (c : Char) : Bool :=
  c.isAlphanum || c == '+' || c == '-' || c == '_' || c == '.' || c == ':'

/-- The value of a digit in any base up to sixteen. -/
def digitValue (c : Char) : Option Nat :=
  if '0' ≤ c ∧ c ≤ '9' then some (c.toNat - '0'.toNat)
  else if 'a' ≤ c ∧ c ≤ 'f' then some (c.toNat - 'a'.toNat + 10)
  else if 'A' ≤ c ∧ c ≤ 'F' then some (c.toNat - 'A'.toNat + 10)
  else none

/-- The values of the digits of a run in a base, most significant first. A run starts and ends in a digit, and each underscore in it
has a digit on both sides. -/
def digitRun (base : Nat) : List Char → Option (List Nat)
  | [] => none
  | [c] => (digitValue c).bind fun d => if d < base then some [d] else none
  | c :: '_' :: rest => do
    let d ← digitValue c
    let ds ← digitRun base rest
    if d < base then some (d :: ds) else none
  | c :: rest => do
    let d ← digitValue c
    let ds ← digitRun base rest
    if d < base then some (d :: ds) else none

/-- The number that digits denote in a base. -/
def ofDigits (base : Nat) (ds : List Nat) : Nat :=
  ds.foldl (fun n d => n * base + d) 0

/-- A sign and what follows it. -/
def takeSign : List Char → Bool × List Char
  | '-' :: cs => (true, cs)
  | '+' :: cs => (false, cs)
  | cs => (false, cs)

/-- The digits of a whole number without sign: a zero stands alone. -/
def wholeRun (cs : List Char) : Option (List Nat) :=
  match cs with
  | '0' :: _ :: _ => none
  | _ => digitRun 10 cs

/-- The integers a document can hold. -/
def inWord (n : Int) : Option Int :=
  if -0x8000000000000000 ≤ n ∧ n < 0x8000000000000000 then some n else none

/-- An integer, in base ten with a sign or in base sixteen, eight or two without one. -/
def readInteger : List Char → Option Int
  | '0' :: 'x' :: cs => (digitRun 16 cs).bind fun ds => inWord (ofDigits 16 ds)
  | '0' :: 'o' :: cs => (digitRun 8 cs).bind fun ds => inWord (ofDigits 8 ds)
  | '0' :: 'b' :: cs => (digitRun 2 cs).bind fun ds => inWord (ofDigits 2 ds)
  | cs =>
    let (negative, digits) := takeSign cs
    (wholeRun digits).bind fun ds => inWord (if negative then -(ofDigits 10 ds : Int) else ofDigits 10 ds)

/-- A run cut before the first character that passes the test. -/
def cutBefore (p : Char → Bool) (cs : List Char) : List Char × List Char :=
  (cs.takeWhile fun c => !p c, cs.dropWhile fun c => !p c)

/-- The power of ten after the mark of an exponent; digits may start with zeros. -/
def readExponent (cs : List Char) : Option Int :=
  let (negative, digits) := takeSign cs
  (digitRun 10 digits).map fun ds => if negative then -(ofDigits 10 ds : Int) else ofDigits 10 ds

/-- A number with a point or an exponent. One too great for a double is refused, one too far below zero is not. -/
def readFloating (cs : List Char) : Option Decimal.Binary64 := do
  let (negative, body) := takeSign cs
  if body = ['i', 'n', 'f'] then return .infinite negative
  if body = ['n', 'a', 'n'] then return .nan
  let (mantissa, mark) := cutBefore (fun c => c == 'e' || c == 'E') body
  let (whole, point) := cutBefore (· == '.') mantissa
  let wholeDigits ← wholeRun whole
  let placeDigits ← match point with
    | [] => some []
    | _ :: places => digitRun 10 places
  let power ← match mark with
    | [] => if point = [] then none else some 0
    | _ :: exponent => readExponent exponent
  let x := Decimal.Binary64.ofDecimal negative (ofDigits 10 (wholeDigits ++ placeDigits)) (power - placeDigits.length)
  if x = .infinite false then none else some x

/-- A number of exactly so many digits within bounds. -/
def boundedNumber (width low high : Nat) (cs : List Char) : Bool :=
  cs.length == width && cs.all Char.isDigit &&
    (let n := ofDigits 10 (cs.filterMap digitValue); low ≤ n && n ≤ high)

/-- The days of a month. -/
def daysOfMonth (year month : Nat) : Nat :=
  if month = 2 then (if year % 4 = 0 ∧ (year % 100 ≠ 0 ∨ year % 400 = 0) then 29 else 28)
  else if month = 4 ∨ month = 6 ∨ month = 9 ∨ month = 11 then 30
  else 31

/-- A calendar day that exists. -/
def isDate (cs : List Char) : Bool :=
  match Text.fields '-' cs with
  | [year, month, day] =>
    let number (ds : List Char) := ofDigits 10 (ds.filterMap digitValue)
    boundedNumber 4 0 9999 year && boundedNumber 2 1 12 month &&
      boundedNumber 2 1 (daysOfMonth (number year) (number month)) day
  | _ => false

/-- A time of day; the last second of a day may be a leap second, and the second may have places. -/
def isTime (cs : List Char) : Bool :=
  match Text.fields ':' cs with
  | [hour, minute, second] =>
    let (whole, point) := cutBefore (· == '.') second
    boundedNumber 2 0 23 hour && boundedNumber 2 0 59 minute && boundedNumber 2 0 60 whole &&
      match point with
      | [] => true
      | _ :: places => places ≠ [] && places.all Char.isDigit
  | _ => false

/-- How far a time is from the reference: a mark for none, or a sign with hours and minutes. -/
def isOffset : List Char → Bool
  | ['Z'] | ['z'] => true
  | sign :: cs =>
    (sign == '+' || sign == '-') &&
      match Text.fields ':' cs with
      | [hour, minute] => boundedNumber 2 0 23 hour && boundedNumber 2 0 59 minute
      | _ => false
  | [] => false

/-- A time of day, with or without an offset. -/
def isZonedTime (cs : List Char) : Bool :=
  let (time, offset) := cutBefore (fun c => c == 'Z' || c == 'z' || c == '+' || c == '-') cs
  isTime time && (offset = [] || isOffset offset)

/-- A date, a time, or both with a letter in between. -/
def isMoment (cs : List Char) : Bool :=
  let (date, rest) := cutBefore (fun c => c == 'T' || c == 't') cs
  match rest with
  | [] => isDate cs || isTime cs
  | _ :: time => isDate date && isZonedTime time

/-- What a run of bare characters denotes, if anything. -/
def readBare (cs : List Char) : Option Bare :=
  if cs = ['t', 'r', 'u', 'e'] then some (.boolean true)
  else if cs = ['f', 'a', 'l', 's', 'e'] then some (.boolean false)
  else
    match readInteger cs with
    | some n => some (.integer n)
    | none =>
      match readFloating cs with
      | some x => some (.floating x)
      | none => if isMoment cs then some .moment else none

end BootDisk.Toml
