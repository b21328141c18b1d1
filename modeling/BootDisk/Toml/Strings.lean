import BootDisk.Toml.Scalar

/-!
# Quoted strings

The four ways to write a string: in double quotes, where a backslash starts an escape, or in single quotes, where nothing is special;
each on one line with single marks or over several lines with triple ones. A reader takes the characters after the opening mark and
gives the string with what follows the closing mark.
-/

namespace BootDisk.Toml

/-- Reads from the front of the remaining text, or finds it malformed. -/
abbrev Reader := StateT (List Char) Option

/-- Characters that may stand in a text as they are, line ends apart: the tab, and everything from the space on but the delete mark. -/
def isPlain (c : Char) : Bool :=
  c == '\t' || (' ' ≤ c && c ≠ '\x7f')

/-- Tabs and spaces. -/
def isSpace (c : Char) : Bool :=
  c == ' ' || c == '\t'

/-- A character by its number, if it has one. -/
def scalar? (n : Nat) : Option Char :=
  if n < 0xD800 ∨ (0xDFFF < n ∧ n < 0x110000) then some (Char.ofNat n) else none

/-- The number that hexadecimal digits denote. -/
def hexNumber (cs : List Char) : Option Nat :=
  (cs.mapM digitValue).map (ofDigits 16)

/-- The character that a one-letter escape stands for. -/
def shortEscape (c : Char) : Option Char :=
  if c == 'b' then some '\x08'
  else if c == 't' then some '\t'
  else if c == 'n' then some '\n'
  else if c == 'f' then some '\x0c'
  else if c == 'r' then some '\r'
  else if c == '"' then some '"'
  else if c == '\\' then some '\\'
  else none

/-- Puts a character in front of the string that was read. -/
def consRead (c : Char) (r : Option (List Char × List Char)) : Option (List Char × List Char) :=
  r.map fun (s, rest) => (c :: s, rest)

/-- The rest of a string in double quotes on one line. -/
def basicString : List Char → Option (List Char × List Char)
  | [] => none
  | '"' :: rest => some ([], rest)
  | '\\' :: 'u' :: a :: b :: c :: d :: rest => do
    let x ← (hexNumber [a, b, c, d]).bind scalar?
    consRead x (basicString rest)
  | '\\' :: 'U' :: a :: b :: c :: d :: e :: f :: g :: h :: rest => do
    let x ← (hexNumber [a, b, c, d, e, f, g, h]).bind scalar?
    consRead x (basicString rest)
  | '\\' :: e :: rest => do
    let x ← shortEscape e
    consRead x (basicString rest)
  | c :: rest => if isPlain c && c != '\\' then consRead c (basicString rest) else none

/-- The rest of a string in single quotes on one line. -/
def literalString : List Char → Option (List Char × List Char)
  | [] => none
  | '\'' :: rest => some ([], rest)
  | c :: rest => if isPlain c then consRead c (literalString rest) else none

/-- Where the reader of a long string in double quotes is: in its text, behind a backslash that has to end its line, or in the blank
space such a backslash takes away. -/
inductive LongState where
  | text
  | lineBackslash
  | gap
  deriving DecidableEq, Repr

/-- The rest of a string in triple double quotes. Up to two quotes may stand before the closing mark, and a line end is one newline
however it is written. -/
def longBasicString : LongState → List Char → Option (List Char × List Char)
  | _, [] => none
  | .lineBackslash, c :: rest =>
    if isSpace c then longBasicString .lineBackslash rest
    else if c == '\n' then longBasicString .gap rest
    else
      match c, rest with
      | '\r', '\n' :: rest => longBasicString .gap rest
      | _, _ => none
  | .gap, ' ' :: rest => longBasicString .gap rest
  | .gap, '\t' :: rest => longBasicString .gap rest
  | .gap, '\n' :: rest => longBasicString .gap rest
  | .gap, '\r' :: '\n' :: rest => longBasicString .gap rest
  | _, '"' :: '"' :: '"' :: '"' :: '"' :: rest => some (['"', '"'], rest)
  | _, '"' :: '"' :: '"' :: '"' :: rest => some (['"'], rest)
  | _, '"' :: '"' :: '"' :: rest => some ([], rest)
  | _, '\\' :: 'u' :: a :: b :: c :: d :: rest => do
    let x ← (hexNumber [a, b, c, d]).bind scalar?
    consRead x (longBasicString .text rest)
  | _, '\\' :: 'U' :: a :: b :: c :: d :: e :: f :: g :: h :: rest => do
    let x ← (hexNumber [a, b, c, d, e, f, g, h]).bind scalar?
    consRead x (longBasicString .text rest)
  | _, '\\' :: e :: rest =>
    match shortEscape e with
    | some x => consRead x (longBasicString .text rest)
    | none => longBasicString .lineBackslash (e :: rest)
  | _, '\r' :: '\n' :: rest => consRead '\n' (longBasicString .text rest)
  | _, c :: rest => if (isPlain c || c == '\n') && c != '\\' then consRead c (longBasicString .text rest) else none

/-- The rest of a string in triple single quotes. -/
def longLiteralString : List Char → Option (List Char × List Char)
  | [] => none
  | '\'' :: '\'' :: '\'' :: '\'' :: '\'' :: rest => some (['\'', '\''], rest)
  | '\'' :: '\'' :: '\'' :: '\'' :: rest => some (['\''], rest)
  | '\'' :: '\'' :: '\'' :: rest => some ([], rest)
  | '\r' :: '\n' :: rest => consRead '\n' (longLiteralString rest)
  | c :: rest => if isPlain c || c == '\n' then consRead c (longLiteralString rest) else none

/-- Takes away a line end that follows an opening triple mark. -/
def dropLineEnd : List Char → List Char
  | '\n' :: rest => rest
  | '\r' :: '\n' :: rest => rest
  | cs => cs

/-- A string on one line, as keys are written. -/
def lineString : List Char → Option (List Char × List Char)
  | '"' :: rest => basicString rest
  | '\'' :: rest => literalString rest
  | _ => none

/-- A string written in any of the four ways. -/
def anyString : List Char → Option (List Char × List Char)
  | '"' :: '"' :: '"' :: rest => longBasicString .text (dropLineEnd rest)
  | '\'' :: '\'' :: '\'' :: rest => longLiteralString (dropLineEnd rest)
  | cs => lineString cs

end BootDisk.Toml
