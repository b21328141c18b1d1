import BootDisk.Decimal.Binary64
import BootDisk.Shell.Process

/-!
# Writing texts

The commands of the shell that write their arguments: as they are but for escapes, or laid out by a format. Each of them tells the code it
ends with.
-/

namespace BootDisk.Shell

/-! ## Escapes -/

/-- The octet of a number, which wraps. -/
def octetOf (n : Nat) : Char :=
  Char.ofNat (n % 256)

/-- The octet that a letter behind a backslash stands for. -/
def controlFor? (c : Char) : Option Char :=
  match c with
  | 'a' => some '\x07'
  | 'b' => some '\x08'
  | 'f' => some '\x0c'
  | 'n' => some '\n'
  | 'r' => some '\r'
  | 't' => some '\t'
  | 'v' => some '\x0b'
  | '\\' => some '\\'
  | _ => none

/-- Whether an octet is a digit of base eight. -/
def isOctal (c : Char) : Bool :=
  '0' ≤ c && c ≤ '7'

/-- What the text behind a backslash stands for, and what is behind it; a backslash that begins nothing stands for itself. -/
def escape (os : Octets) : Char × Octets :=
  match os with
  | [] => ('\\', [])
  | c :: rest =>
    if isOctal c then
      let (n, rest) := takeOctal 3 0 os
      (octetOf n, rest)
    else
      match controlFor? c with
      | some d => (d, rest)
      | none => ('\\', os)

/-- A text with its escapes worked out, in at most so many steps; says also whether it asks for the output to stop there. A zero may lead
in an octal number. -/
def unescape : Nat → Octets → Octets × Bool
  | 0, _ => ([], false)
  | _ + 1, [] => ([], false)
  | n + 1, '\\' :: os =>
    match os with
    | 'c' :: _ => ([], true)
    | '0' :: d :: rest =>
      let (c, rest) := escape (if isOctal d then d :: rest else os)
      let (more, stop) := unescape n rest
      (c :: more, stop)
    | os =>
      let (c, rest) := escape os
      let (more, stop) := unescape n rest
      (c :: more, stop)
  | n + 1, c :: os =>
    let (more, stop) := unescape n os
    (c :: more, stop)

/-- A text with its escapes worked out; says also whether it asks for the output to stop there. -/
def unescaped (os : Octets) : Octets × Bool :=
  unescape (os.length + 1) os

/-- Writes its arguments. -/
def echo (args : List Octets) : Sh Nat := do
  let (args, newline) :=
    match args with
    | ['-', 'n'] :: rest => (rest, false)
    | _ => (args, true)
  let (os, stop) := unescaped (joined args)
  Sh.say (if newline && !stop then os ++ ['\n'] else os)
  return 0

namespace Printf

/-! ## Directives -/

/-- How a value is to be written. -/
structure Directive where
  left : Bool := false
  zeros : Bool := false
  plus : Bool := false
  space : Bool := false
  marked : Bool := false
  width : Nat := 0
  precision : Option Nat := none
  deriving Repr, Inhabited

/-- The directive with the flags that it is written with. -/
def Directive.ofFlags (flags : Octets) : Directive :=
  { left := flags.contains '-', zeros := flags.contains '0', plus := flags.contains '+', space := flags.contains ' ',
    marked := flags.contains '#' }

/-- The directive with a width; a negative one asks for the left. -/
def Directive.withWidth (d : Directive) (n : Int) : Directive :=
  { d with width := n.natAbs, left := d.left || n < 0 }

/-- A text filled up to a width. -/
def fill (d : Directive) (os : Octets) : Octets :=
  let gap := d.width - os.length
  if d.left then os ++ List.replicate gap ' ' else List.replicate gap ' ' ++ os

/-- A text, cut where the directive says so, and filled up. -/
def fillText (d : Directive) (os : Octets) : Octets :=
  fill d (d.precision.elim os os.take)

/-- A number with what is put in front of it, filled up with zeros if that is asked for. -/
def fillNumber (d : Directive) (zeros : Bool) (before digits : Octets) : Octets :=
  if zeros && !d.left then before ++ List.replicate (d.width - before.length - digits.length) '0' ++ digits
  else fill d (before ++ digits)

/-- The sign of a number. -/
def sign (d : Directive) (negative : Bool) : Octets :=
  if negative then ['-'] else if d.plus then ['+'] else if d.space then [' '] else []

/-- A whole number. -/
def whole (d : Directive) (n : Int) : Octets :=
  let digits := if d.precision = some 0 ∧ n = 0 then [] else ofNat n.natAbs
  let digits := List.replicate (d.precision.getD 0 - digits.length) '0' ++ digits
  fillNumber d (d.zeros && d.precision.isNone) (sign d (n < 0)) digits

/-- A whole number without a sign in a base. -/
def unsigned (d : Directive) (letter : Char) (n : Nat) : Octets :=
  let base := if letter = 'o' then 8 else if letter = 'u' then 10 else 16
  let digits := if d.precision = some 0 ∧ n = 0 then [] else Nat.toDigits base n
  let digits := if letter = 'X' then digits.map Char.toUpper else digits
  let digits := List.replicate (d.precision.getD 0 - digits.length) '0' ++ digits
  let digits := if d.marked ∧ letter = 'o' ∧ digits.head? ≠ some '0' then '0' :: digits else digits
  let before := if d.marked ∧ n ≠ 0 ∧ (letter = 'x' ∨ letter = 'X') then ['0', letter] else []
  fillNumber d (d.zeros && d.precision.isNone) before digits

/-! ## Numbers with a point -/

/-- Digits with a point before the last so many of them. -/
def pointed (marked : Bool) (places n : Nat) : Octets :=
  let digits := ofNat n
  let digits := List.replicate (places + 1 - digits.length) '0' ++ digits
  let front := digits.take (digits.length - places)
  let back := digits.drop (digits.length - places)
  if back = [] then (if marked then front ++ ['.'] else front) else front ++ '.' :: back

/-- A fraction with so many places. -/
def positional (marked : Bool) (num den places : Nat) : Octets :=
  pointed marked places (Decimal.roundDiv (num * Nat.pow 10 places) den)

/-- How many times a fraction that is not zero can be divided by ten before it is below ten; negative if it has to be multiplied. -/
def tens (num den : Nat) : Int :=
  let guess : Int := ((ofNat num).length : Int) - (ofNat den).length
  if num * Nat.pow 10 (-guess).toNat < den * Nat.pow 10 guess.toNat then guess - 1 else guess

/-- The digits of a fraction, one before the point and so many behind it, and its power of ten. -/
def scientificDigits (num den places : Nat) : Nat × Int :=
  if num = 0 then (0, 0)
  else
    let e := tens num den
    let n := Decimal.roundDiv (num * Nat.pow 10 (-e).toNat * Nat.pow 10 places) (den * Nat.pow 10 e.toNat)
    if n = Nat.pow 10 (places + 1) then (n / 10, e + 1) else (n, e)

/-- A power of ten behind its letter, with at least two digits. -/
def powerText (letter : Char) (e : Int) : Octets :=
  let digits := ofNat e.natAbs
  letter :: (if e < 0 then '-' else '+') :: (if digits.length < 2 then '0' :: digits else digits)

/-- A fraction as a power of ten. -/
def scientific (marked : Bool) (letter : Char) (num den places : Nat) : Octets :=
  let (n, e) := scientificDigits num den places
  pointed marked places n ++ powerText letter e

/-- A text without the zeros at its end, and without a point that is left there. -/
def withoutZeros (os : Octets) : Octets :=
  if os.contains '.' then
    let kept := os.reverse.dropWhile (· == '0')
    (if kept.head? = some '.' then kept.tail else kept).reverse
  else os

/-- A fraction with so many digits, in whichever way is shorter. -/
def general (marked : Bool) (letter : Char) (num den digits : Nat) : Octets :=
  let digits := if digits = 0 then 1 else digits
  let (n, e) := scientificDigits num den (digits - 1)
  let trimmed (os : Octets) : Octets := if marked then os else withoutZeros os
  if -4 ≤ e ∧ e < digits then trimmed (positional marked num den ((digits : Int) - 1 - e).toNat)
  else trimmed (pointed marked (digits - 1) n) ++ powerText letter e

/-- A number with a point. -/
def real (d : Directive) (letter : Char) (v : Decimal.Binary64) : Octets :=
  match v with
  | .nan => fill d (ofText (if letter.isUpper then "NAN" else "nan"))
  | .infinite negative => fill d (sign d negative ++ ofText (if letter.isUpper then "INF" else "inf"))
  | .finite negative m e =>
    let (num, den) := Decimal.scaled m e
    let places := d.precision.getD 6
    let exponent := if letter.isUpper then 'E' else 'e'
    let digits :=
      if letter = 'f' ∨ letter = 'F' then positional d.marked num den places
      else if letter = 'e' ∨ letter = 'E' then scientific d.marked exponent num den places
      else general d.marked exponent num den places
    fillNumber d d.zeros (sign d negative) digits

/-- The decimal at the front of a text: its digits, its power of ten, and what is behind it; none if there is none. -/
def decimal? (os : Octets) : Option (Nat × Int × Octets) :=
  let whole := os.takeWhile Char.isDigit
  let rest := os.drop whole.length
  let (places, rest) :=
    match rest with
    | '.' :: more =>
      let places := more.takeWhile Char.isDigit
      (places, more.drop places.length)
    | _ => ([], rest)
  if whole = [] ∧ places = [] then none
  else
    let digits := (toNat? (whole ++ places)).getD 0
    let plain : Nat × Int × Octets := (digits, -(places.length : Int), rest)
    match rest with
    | e :: more =>
      if e = 'e' ∨ e = 'E' then
        let (negative, more) :=
          match more with
          | '-' :: more => (true, more)
          | '+' :: more => (false, more)
          | more => (false, more)
        let power := more.takeWhile Char.isDigit
        match toNat? power with
        | some n => some (digits, (if negative then -(n : Int) else n) - places.length, more.drop power.length)
        | none => some plain
      else some plain
    | [] => some plain

/-- The number at the front of a text, and what is behind it. -/
def readReal (os : Octets) : Decimal.Binary64 × Octets :=
  let inner := os.dropWhile isSpace
  let (negative, digits) :=
    match inner with
    | '-' :: rest => (true, rest)
    | '+' :: rest => (false, rest)
    | rest => (false, rest)
  match decimal? digits with
  | some (n, power, rest) => (.ofDecimal negative n power, rest)
  | none =>
    let word := (digits.takeWhile Char.isAlpha).map Char.toLower
    if word = "inf".toList ∨ word = "infinity".toList then (.infinite negative, digits.drop word.length)
    else if word = "nan".toList then (.nan, digits.drop word.length)
    else (.finite false 0 0, os)

/-! ## Formats -/

/-- The arguments that are left, and the code so far. -/
structure Supply where
  args : List Octets
  code : Nat := 0

/-- A format at work. -/
abbrev Formatting := StateT Supply Sh

/-- Takes the next argument, if there is one. -/
def take? : Formatting (Option Octets) := do
  match (← get).args with
  | [] => return none
  | a :: args =>
    modify fun s => { s with args := args }
    return some a

/-- Warns of an argument that is no number throughout. -/
def check (arg rest : Octets) (beyond : Bool) : Formatting Unit := do
  let complain (why : String) : Formatting Unit := do
    Sh.warn (arg ++ ofText ": " ++ ofText why)
    modify fun s => { s with code := 1 }
  if rest ≠ [] then complain (if rest = arg then "expected numeric value" else "not completely converted")
  else if beyond then complain "Numerical result out of range"

/-- The octet behind a quote, as a number. -/
def quotedOctet? : Octets → Option Nat
  | '"' :: rest => some ((rest.head?.map Char.toNat).getD 0)
  | '\'' :: rest => some ((rest.head?.map Char.toNat).getD 0)
  | _ => none

/-- The next argument as a whole number within bounds. -/
def takeWithin (lo hi : Int) : Formatting Int := do
  match ← take? with
  | none => return 0
  | some a =>
    match quotedOctet? a with
    | some n => return n
    | none =>
      let r := Number.readWithin lo hi none a
      check a r.rest r.beyond
      return r.value

/-- The next argument as a whole number. -/
def takeWhole : Formatting Int :=
  takeWithin Number.least Number.greatest

/-- The next argument as a whole number without a sign; a negative one wraps. -/
def takeUnsigned : Formatting Nat := do
  let n ← takeWithin (-0xffffffffffffffff) 0xffffffffffffffff
  return (n % 0x10000000000000000).toNat

/-- The next argument as a number with a point. -/
def takeReal : Formatting Decimal.Binary64 := do
  match ← take? with
  | none => return .finite false 0 0
  | some a =>
    match quotedOctet? a with
    | some n => return .ofRatio false n 1
    | none =>
      let (v, rest) := readReal a
      check a rest v.isInfinite
      return v

/-- A count in a format: digits, or a star that stands for an argument. -/
def count (os : Octets) : Formatting (Option Int × Octets) := do
  match os with
  | '*' :: rest => return (some (← takeWhole), rest)
  | os =>
    let digits := os.takeWhile Char.isDigit
    return ((toNat? digits).map Int.ofNat, os.drop digits.length)

/-- The directive behind a percent sign, up to its letter. -/
def directive (os : Octets) : Formatting (Directive × Octets) := do
  let flags := os.takeWhile fun c => ['#', '-', '+', ' ', '0'].contains c
  let (width, os) ← count (os.drop flags.length)
  let d := (Directive.ofFlags flags).withWidth (width.getD 0)
  match os with
  | '.' :: os =>
    let (precision, os) ← count os
    let n := precision.getD 0
    return ({ d with precision := if n < 0 then none else some n.toNat }, os)
  | os => return (d, os)

/-- Writes what a directive makes of its argument; says whether the output is to stop there. -/
def put (d : Directive) (letter : Char) (whole' : Octets) : Formatting Bool := do
  match letter with
  | 'b' =>
    let (os, stop) := unescaped ((← take?).getD [])
    Sh.say (fillText d os)
    return stop
  | 'c' =>
    let c := ((← take?).bind List.head?).getD '\x00'
    Sh.say (fill d [c])
    return false
  | 's' =>
    Sh.say (fillText d ((← take?).getD []))
    return false
  | _ =>
    if letter = 'd' ∨ letter = 'i' then Sh.say (whole d (← takeWhole))
    else if ['o', 'u', 'x', 'X'].contains letter then Sh.say (unsigned d letter (← takeUnsigned))
    else if ['e', 'E', 'f', 'F', 'g', 'G'].contains letter then Sh.say (real d letter (← takeReal))
    else Sh.fault (whole' ++ ofText ": invalid directive")
    return false

/-- Goes through a format once, in at most so many steps; says whether the output is to stop there. -/
def pass : Nat → Octets → Formatting Bool
  | 0, _ => return false
  | _ + 1, [] => return false
  | n + 1, '\\' :: os => do
    let (c, rest) := escape os
    Sh.say [c]
    pass n rest
  | n + 1, '%' :: '%' :: os => do
    Sh.say ['%']
    pass n os
  | n + 1, '%' :: os => do
    let (d, rest) ← directive os
    match rest with
    | [] => Sh.fault (ofText "missing format character")
    | letter :: rest =>
      let written := '%' :: os.take (os.length - rest.length)
      if ← put d letter written then return true else pass n rest
  | n + 1, c :: os => do
    Sh.say [c]
    pass n os

/-- Goes through a format as often as there are arguments for it, at most so many times. -/
def passes (format : Octets) : Nat → Formatting Unit
  | 0 => pure ()
  | n + 1 => do
    let before := (← get).args.length
    let stop ← pass (format.length + 1) format
    let left := (← get).args.length
    if !stop && left != before && left != 0 then passes format n

end Printf

/-- Writes its arguments by a format. -/
def printf (args : List Octets) : Sh Nat := do
  match args with
  | ['-', '-'] :: format :: args => written format args
  | ('-' :: c :: cs) :: _ => if c = '-' ∧ cs = [] then misused else Sh.fault (ofText "Illegal option -" ++ [c])
  | format :: args => written format args
  | [] => misused
where
  /-- Writes arguments by a format. -/
  written (format : Octets) (args : List Octets) : Sh Nat := do
    let ((), supply) ← (Printf.passes format (args.length + 1)).run { args := args }
    return supply.code
  /-- The fault of there being no format. -/
  misused : Sh Nat :=
    Sh.fault (ofText "usage: printf format [arg ...]")

end BootDisk.Shell
