import BootDisk.Mismatch

/-!
# Reading JSON into records

A text is read from front to back and matched with the record it should hold as it is read, so whatever is wrong first is what is
reported: a place where the text is no JSON, or a value that does not fit. A record may be given as an object, in any order of its
keys and with keys that nobody knows, or as an array of its fields in order.
-/

namespace BootDisk.Json

open Decimal (Binary64)

/-- Why a text is not the record: it is no JSON, or it holds something else. -/
inductive Error where
  | malformed
  | disagrees (mismatch : Mismatch)
  deriving DecidableEq, Repr

/-- Reads from the front of the remaining text. -/
abbrev Reader (α : Type) := List Char → Except Error (α × List Char)

/-- The text without the white space at its front. -/
def dropBlank (cs : List Char) : List Char :=
  cs.dropWhile fun c => c == ' ' || c == '\n' || c == '\t' || c == '\r'

/-- Takes a word that has to come next. -/
def expectWord : List Char → Reader Unit
  | [], cs => .ok ((), cs)
  | _ :: _, [] => .error .malformed
  | w :: ws, c :: cs => if w = c then expectWord ws cs else .error .malformed

/-! ## Strings -/

/-- The value of a hexadecimal digit. -/
def hexValue (c : Char) : Option Nat :=
  if '0' ≤ c ∧ c ≤ '9' then some (c.toNat - '0'.toNat)
  else if 'a' ≤ c ∧ c ≤ 'f' then some (c.toNat - 'a'.toNat + 10)
  else if 'A' ≤ c ∧ c ≤ 'F' then some (c.toNat - 'A'.toNat + 10)
  else none

/-- The number that four hexadecimal digits denote. -/
def hexNumber (a b c d : Char) : Option Nat := do
  let a ← hexValue a
  let b ← hexValue b
  let c ← hexValue c
  let d ← hexValue d
  return ((a * 16 + b) * 16 + c) * 16 + d

/-- The character that a one-letter escape stands for. -/
def shortEscape (c : Char) : Option Char :=
  if c == '"' then some '"'
  else if c == '\\' then some '\\'
  else if c == '/' then some '/'
  else if c == 'b' then some '\x08'
  else if c == 'f' then some '\x0c'
  else if c == 'n' then some '\n'
  else if c == 'r' then some '\r'
  else if c == 't' then some '\t'
  else none

/-- The first half of a pair of numbers that together denote one character. -/
def isHighHalf (n : Nat) : Bool :=
  0xD800 ≤ n && n ≤ 0xDBFF

/-- The second half of such a pair. -/
def isLowHalf (n : Nat) : Bool :=
  0xDC00 ≤ n && n ≤ 0xDFFF

/-- The number of the character that two halves denote. -/
def joinHalves (high low : Nat) : Nat :=
  0x10000 + (high - 0xD800) * 0x400 + (low - 0xDC00)

/-- Puts a character in front of the string that was read. -/
def consRead (c : Char) : Except Error (List Char × List Char) → Except Error (List Char × List Char)
  | .ok (s, rest) => .ok (c :: s, rest)
  | .error e => .error e

/-- The rest of a string behind its opening quote. A half of a pair is no character by itself. -/
def readChars : Reader (List Char)
  | [] => .error .malformed
  | '"' :: rest => .ok ([], rest)
  | '\\' :: 'u' :: a :: b :: c :: d :: '\\' :: 'u' :: e :: f :: g :: h :: rest =>
    match hexNumber a b c d with
    | none => .error .malformed
    | some n =>
      if isHighHalf n then
        match hexNumber e f g h with
        | some m => if isLowHalf m then consRead (Char.ofNat (joinHalves n m)) (readChars rest) else .error .malformed
        | none => .error .malformed
      else if isLowHalf n then .error .malformed
      else consRead (Char.ofNat n) (readChars ('\\' :: 'u' :: e :: f :: g :: h :: rest))
  | '\\' :: 'u' :: a :: b :: c :: d :: rest =>
    match hexNumber a b c d with
    | none => .error .malformed
    | some n => if isHighHalf n || isLowHalf n then .error .malformed else consRead (Char.ofNat n) (readChars rest)
  | '\\' :: e :: rest =>
    match shortEscape e with
    | some c => consRead c (readChars rest)
    | none => .error .malformed
  | c :: rest => if c < ' ' || c == '\\' then .error .malformed else consRead c (readChars rest)

/-- Passes over the rest of a string; any four digits will do after the mark of a number. -/
def skipChars : List Char → Except Error (List Char)
  | [] => .error .malformed
  | '"' :: rest => .ok rest
  | '\\' :: 'u' :: a :: b :: c :: d :: rest =>
    match hexNumber a b c d with
    | none => .error .malformed
    | some _ => skipChars rest
  | '\\' :: e :: rest =>
    match shortEscape e with
    | some _ => skipChars rest
    | none => .error .malformed
  | c :: rest => if c < ' ' || c == '\\' then .error .malformed else skipChars rest

/-! ## Numbers -/

/-- A number as it is held: a whole one while 64 bits are enough, and a double otherwise. -/
inductive Number where
  | whole (n : Nat)
  | negative (n : Int)
  | double (x : Binary64)
  deriving DecidableEq, Repr

/-- The bound of 64-bit numbers. -/
def wordBound : Nat := 0x10000000000000000

/-- Takes digits into a number as long as 64 bits hold it; gives the number, how many digits it took, and the digits left. -/
def takeDigits : Nat → Nat → List Char → Nat × Nat × List Char
  | n, taken, c :: cs =>
    if c.isDigit then
      let m := n * 10 + (c.toNat - '0'.toNat)
      if m < wordBound then takeDigits m (taken + 1) cs else (n, taken, c :: cs)
    else (n, taken, c :: cs)
  | n, taken, [] => (n, taken, [])

/-- The power of ten as a double. -/
def tenTo (n : Nat) : Binary64 :=
  .ofDecimal false 1 n

/-- The greatest power of ten that a double holds. -/
def maxTenPower : Nat := 308

/-- Divides by powers of ten until none is left to divide by, in steps of the greatest power. -/
def divideDown : Nat → Binary64 → Nat → Binary64
  | 0, x, _ => x
  | steps + 1, x, power =>
    if power ≤ maxTenPower then x.dividedBy (tenTo power)
    else if x.isZero then x
    else divideDown steps (x.dividedBy (tenTo maxTenPower)) (power - maxTenPower)

/-- The double for digits and a power of ten: the digits as a double, multiplied or divided once if one power of ten is enough. -/
def double (negative : Bool) (digits : Nat) (power : Int) : Except Error Binary64 :=
  let x := Binary64.ofRatio false digits 1
  let signed (y : Binary64) : Binary64 := if negative then y.negate else y
  if 0 ≤ power then
    if power.toNat ≤ maxTenPower then
      let y := x.times (tenTo power.toNat)
      if y.isInfinite then .error .malformed else .ok (signed y)
    else if x.isZero then .ok (signed x)
    else .error .malformed
  else .ok (signed (divideDown 8 x (-power).toNat))

/-- The greatest exponent that is told apart. -/
def maxExponent : Nat := 0x7fffffff

/-- An exponent, kept within bounds. -/
def clampExponent (e : Int) : Int :=
  max (-0x80000000) (min e 0x7fffffff)

/-- The exponent behind its mark, and with it the whole number. -/
def readExponent (negative : Bool) (digits : Nat) (power : Int) (cs : List Char) : Except Error (Number × List Char) :=
  let (down, ds) := match cs with
    | '+' :: ds => (false, ds)
    | '-' :: ds => (true, ds)
    | ds => (false, ds)
  let run := ds.takeWhile Char.isDigit
  let rest := ds.dropWhile Char.isDigit
  if run = [] then .error .malformed
  else
    let e := run.foldl (fun n c => n * 10 + (c.toNat - '0'.toNat)) 0
    if maxExponent < e then
      if digits ≠ 0 ∧ ¬ down then .error .malformed
      else .ok (.double (.finite negative 0 Binary64.minExponent), rest)
    else
      match double negative digits (clampExponent (if down then power - e else power + e)) with
      | .ok x => .ok (.double x, rest)
      | .error e => .error e

/-- The places behind the point, and with them the whole number. Places that 64 bits have no room for are passed over. -/
def readPlaces (negative : Bool) (digits : Nat) (power : Int) (cs : List Char) : Except Error (Number × List Char) :=
  let (n, taken, rest) := takeDigits digits 0 cs
  let left := rest.dropWhile Char.isDigit
  if cs.takeWhile Char.isDigit = [] then .error .malformed
  else
    let power := power - taken
    match left with
    | 'e' :: more => readExponent negative n power more
    | 'E' :: more => readExponent negative n power more
    | _ =>
      match double negative n power with
      | .ok x => .ok (.double x, left)
      | .error e => .error e

/-- What follows the whole digits of a number; `dropped` digits found no room. -/
def readTail (negative : Bool) (digits dropped : Nat) (rest : List Char) : Except Error (Number × List Char) :=
  match rest with
  | '.' :: more => readPlaces negative digits dropped more
  | 'e' :: more => readExponent negative digits dropped more
  | 'E' :: more => readExponent negative digits dropped more
  | _ =>
    if dropped = 0 then
      if negative then
        if digits = 0 ∨ 0x8000000000000000 < digits then .ok (.double (.negate (.ofRatio false digits 1)), rest)
        else .ok (.negative (-(digits : Int)), rest)
      else .ok (.whole digits, rest)
    else
      match double negative digits dropped with
      | .ok x => .ok (.double x, rest)
      | .error e => .error e

/-- A number behind its sign. No digit follows a zero at its start. -/
def readUnsigned (negative : Bool) (cs : List Char) : Except Error (Number × List Char) :=
  match cs with
  | '0' :: rest =>
    if (rest.head?.map Char.isDigit).getD false then .error .malformed else readTail negative 0 0 rest
  | _ =>
    let (n, taken, rest) := takeDigits 0 0 cs
    if taken = 0 then .error .malformed
    else readTail negative n (rest.takeWhile Char.isDigit).length (rest.dropWhile Char.isDigit)

/-- A number. -/
def readNumber (cs : List Char) : Except Error (Number × List Char) :=
  match cs with
  | '-' :: rest => readUnsigned true rest
  | _ => readUnsigned false cs

/-- The kind of a number as messages tell it. -/
def Number.kind : Number → Found
  | whole n => .integer n
  | negative n => .integer n
  | double x => .floating x.compact

/-- Passes over digits, at least one. -/
def skipDigits (cs : List Char) : Except Error (List Char) :=
  if (cs.head?.map Char.isDigit).getD false then .ok (cs.dropWhile Char.isDigit) else .error .malformed

/-- Passes over the exponent of a number, if there is one. -/
def skipExponent (cs : List Char) : Except Error (List Char) :=
  match cs with
  | 'e' :: '+' :: rest | 'e' :: '-' :: rest | 'E' :: '+' :: rest | 'E' :: '-' :: rest => skipDigits rest
  | 'e' :: rest | 'E' :: rest => skipDigits rest
  | _ => .ok cs

/-- Passes over a number behind its sign, whatever its size. -/
def skipUnsigned (cs : List Char) : Except Error (List Char) := do
  let rest ← match cs with
    | '0' :: rest => if (rest.head?.map Char.isDigit).getD false then .error .malformed else .ok rest
    | _ => skipDigits cs
  match rest with
  | '.' :: more => skipExponent (← skipDigits more)
  | _ => skipExponent rest

/-! ## Values nobody asks for -/

/-- The elements of an array behind its opening bracket or a comma. -/
def skipItems (value : List Char → Except Error (List Char)) : Nat → List Char → Except Error (List Char)
  | 0, _ => .error .malformed
  | steps + 1, cs => do
    let rest ← value cs
    match dropBlank rest with
    | ',' :: rest => skipItems value steps rest
    | ']' :: rest => .ok rest
    | _ => .error .malformed

/-- The members of an object behind its opening brace or a comma. -/
def skipMembers (value : List Char → Except Error (List Char)) : Nat → List Char → Except Error (List Char)
  | 0, _ => .error .malformed
  | steps + 1, cs =>
    match dropBlank cs with
    | '"' :: rest => do
      let rest ← skipChars rest
      match dropBlank rest with
      | ':' :: rest => do
        let rest ← value rest
        match dropBlank rest with
        | ',' :: rest => skipMembers value steps rest
        | '\x7d' :: rest => .ok rest
        | _ => .error .malformed
      | _ => .error .malformed
    | _ => .error .malformed

/-- Passes over a value with at most so many levels in it; no value has more levels than characters. -/
def skipValue : Nat → List Char → Except Error (List Char)
  | 0, _ => .error .malformed
  | levels + 1, cs =>
    match dropBlank cs with
    | 'n' :: rest => (expectWord ['u', 'l', 'l'] rest).map Prod.snd
    | 't' :: rest => (expectWord ['r', 'u', 'e'] rest).map Prod.snd
    | 'f' :: rest => (expectWord ['a', 'l', 's', 'e'] rest).map Prod.snd
    | '"' :: rest => skipChars rest
    | '[' :: rest =>
      match dropBlank rest with
      | ']' :: rest => .ok rest
      | _ => skipItems (skipValue levels) (rest.length + 1) rest
    | '\x7b' :: rest =>
      match dropBlank rest with
      | '\x7d' :: rest => .ok rest
      | _ => skipMembers (skipValue levels) (rest.length + 1) rest
    | '-' :: rest => skipUnsigned rest
    | cs => skipUnsigned cs

/-! ## Values of a kind -/

/-- Reports that a value is of another kind than expected. A scalar is read first, and may turn out to be no JSON. -/
def otherKind (expected : Expected) (cs : List Char) : Error :=
  let wrong (f : Found) : Error := .disagrees (.wrongKind f expected)
  let after {α : Type} (r : Except Error (α × List Char)) (f : α → Found) : Error :=
    match r with
    | .ok (a, _) => wrong (f a)
    | .error e => e
  match cs with
  | 'n' :: rest => after (expectWord ['u', 'l', 'l'] rest) fun _ => .null
  | 't' :: rest => after (expectWord ['r', 'u', 'e'] rest) fun _ => .boolean true
  | 'f' :: rest => after (expectWord ['a', 'l', 's', 'e'] rest) fun _ => .boolean false
  | '"' :: rest => after (readChars rest) fun s => .string (String.ofList s)
  | '[' :: _ => wrong .sequence
  | '\x7b' :: _ => wrong .map
  | c :: _ => if c == '-' || c.isDigit then after (readNumber cs) Number.kind else .malformed
  | [] => .malformed

/-- A string, reported under what the field takes. -/
def readString (expected : Expected) (cs : List Char) : Except Error (String × List Char) :=
  match dropBlank cs with
  | '"' :: rest => (readChars rest).map fun (s, rest) => (String.ofList s, rest)
  | cs => .error (otherKind expected cs)

/-- A boolean. -/
def readBoolean (cs : List Char) : Except Error (Bool × List Char) :=
  match dropBlank cs with
  | 't' :: rest => (expectWord ['r', 'u', 'e'] rest).map fun (_, rest) => (true, rest)
  | 'f' :: rest => (expectWord ['a', 'l', 's', 'e'] rest).map fun (_, rest) => (false, rest)
  | cs => .error (otherKind .boolean cs)

/-- A whole number of 64 bits. -/
def readWord (cs : List Char) : Except Error (UInt64 × List Char) :=
  let cs := dropBlank cs
  if (cs.head?.map fun c => c == '-' || c.isDigit).getD false then
    match readNumber cs with
    | .error e => .error e
    | .ok (.whole n, rest) => .ok (UInt64.ofNat n, rest)
    | .ok (.negative n, _) => .error (.disagrees (.outOfRange n .word64))
    | .ok (x, _) => .error (.disagrees (.wrongKind x.kind .word64))
  else .error (otherKind .word64 cs)

/-- What comes next in brackets: the text of the next element, or the text behind the closing bracket. -/
inductive Next where
  | element (cs : List Char)
  | done (cs : List Char)

/-- Looks for the next element of an array. -/
def nextElement (first : Bool) (cs : List Char) : Except Error Next :=
  match dropBlank cs with
  | [] => .error .malformed
  | ']' :: rest => .ok (.done rest)
  | c :: rest =>
    if first then .ok (.element (c :: rest))
    else if c == ',' then
      match dropBlank rest with
      | [] => .error .malformed
      | ']' :: _ => .error .malformed
      | cs => .ok (.element cs)
    else .error .malformed

/-- The elements of an array behind its opening bracket. -/
def readElements (item : Reader α) : Nat → Bool → List Char → Except Error (List α × List Char)
  | 0, _, _ => .error .malformed
  | steps + 1, first, cs => do
    match ← nextElement first cs with
    | .done rest => .ok ([], rest)
    | .element cs => do
      let (a, rest) ← item cs
      let (as, rest) ← readElements item steps false rest
      .ok (a :: as, rest)

/-- A list of values of one kind. -/
def readList (item : Reader α) (cs : List Char) : Except Error (List α × List Char) :=
  match dropBlank cs with
  | '[' :: rest => readElements item (rest.length + 1) true rest
  | cs => .error (otherKind .sequence cs)

/-! ## Records -/

/-- A field of a record that is being read: its name, whether it has been given, and how its value is read into the record. -/
structure Member (σ : Type) where
  name : String
  given : σ → Bool
  read : σ → Reader σ

/-- A field that is read by `read` and kept in the record as an option. -/
def Member.of (name : String) (read : Reader α) (get : σ → Option α) (set : α → σ → σ) : Member σ :=
  ⟨name, fun r => (get r).isSome, fun r cs => (read cs).map fun (a, rest) => (set a r, rest)⟩

/-- A record: what it is called, its fields in order, the record with nothing given, and the finished one. -/
structure Shape (σ α : Type) where
  record : String
  members : List (Member σ)
  blank : σ
  finish : σ → Option α

/-- The text behind a colon. -/
def colon (cs : List Char) : Except Error (List Char) :=
  match dropBlank cs with
  | ':' :: rest => .ok rest
  | _ => .error .malformed

/-- The text of the next key behind its opening quote, or the text behind the closing brace. -/
def nextKey (first : Bool) (cs : List Char) : Except Error Next :=
  match dropBlank cs with
  | [] => .error .malformed
  | '\x7d' :: rest => .ok (.done rest)
  | c :: rest =>
    match first, c, rest with
    | true, '"', rest => .ok (.element rest)
    | true, _, _ => .error .malformed
    | false, ',', rest =>
      match dropBlank rest with
      | '"' :: rest => .ok (.element rest)
      | _ => .error .malformed
    | false, _, _ => .error .malformed

namespace Shape

/-- Reads members behind the opening brace into a record. -/
def readMembers (s : Shape σ α) : Nat → Bool → σ → List Char → Except Error (σ × List Char)
  | 0, _, _, _ => .error .malformed
  | steps + 1, first, r, cs => do
    match ← nextKey first cs with
    | .done rest => .ok (r, rest)
    | .element cs => do
      let (key, rest) ← readChars cs
      match s.members.find? fun m => m.name == String.ofList key with
      | none => do
        let rest ← colon rest
        let rest ← skipValue (rest.length + 1) rest
        s.readMembers steps false r rest
      | some m =>
        if m.given r then .error (.disagrees (.repeatedField m.name))
        else do
          let rest ← colon rest
          let (r, rest) ← m.read r rest
          s.readMembers steps false r rest

/-- Reads fields in order behind the opening bracket into a record; `given` fields came before. -/
def readFields (s : Shape σ α) : List (Member σ) → Nat → σ → List Char → Except Error (σ × List Char)
  | [], _, r, cs =>
    match dropBlank cs with
    | ']' :: rest => .ok (r, rest)
    | _ => .error .malformed
  | m :: ms, given, r, cs => do
    match ← nextElement (given == 0) cs with
    | .done _ => .error (.disagrees (.tooFewFields given s.record s.members.length))
    | .element cs => do
      let (r, rest) ← m.read r cs
      s.readFields ms (given + 1) r rest

/-- The finished record, or its first field that is missing. -/
def complete (s : Shape σ α) (r : σ) : Except Error α :=
  match s.members.find? fun m => !m.given r with
  | some m => .error (.disagrees (.missingField m.name))
  | none =>
    match s.finish r with
    | some a => .ok a
    | none => .error .malformed

/-- Reads a record in either form. -/
def read (s : Shape σ α) (cs : List Char) : Except Error (α × List Char) :=
  match dropBlank cs with
  | '\x7b' :: rest => do
    let (r, rest) ← s.readMembers (rest.length + 1) true s.blank rest
    let a ← s.complete r
    .ok (a, rest)
  | '[' :: rest => do
    let (r, rest) ← s.readFields s.members 0 s.blank rest
    let a ← s.complete r
    .ok (a, rest)
  | cs => .error (otherKind (.record s.record) cs)

/-- Reads a text that holds the record and nothing else. -/
def readAll (s : Shape σ α) (text : String) : Except Error α := do
  let (a, rest) ← s.read text.toList
  if dropBlank rest = [] then .ok a else .error .malformed

end Shape

end BootDisk.Json
