import BootDisk.Text.Quoted

/-!
# Writing JSON

The indented layout: one member or element a line, two spaces a level, and empty brackets closed at once. A string is written as it
is but for quotes, backslashes and the characters below the space.
-/

namespace BootDisk.Json

/-- Two hexadecimal digits. -/
def twoHexDigits (n : Nat) : List Char :=
  [Nat.digitChar (n / 16), Nat.digitChar (n % 16)]

/-- One character of a string. -/
def escapeChar (c : Char) : List Char :=
  if c == '"' then ['\\', '"']
  else if c == '\\' then ['\\', '\\']
  else if c == '\x08' then ['\\', 'b']
  else if c == '\x0c' then ['\\', 'f']
  else if c == '\n' then ['\\', 'n']
  else if c == '\r' then ['\\', 'r']
  else if c == '\t' then ['\\', 't']
  else if c < ' ' then ['\\', 'u', '0', '0'] ++ twoHexDigits c.toNat
  else [c]

/-- A string in quotes. -/
def stringText (s : String) : List Char :=
  '"' :: s.toList.flatMap escapeChar ++ ['"']

/-- A whole number. -/
def wordText (n : Nat) : List Char :=
  Nat.toDigits 10 n

/-- A truth value. -/
def booleanText (b : Bool) : List Char :=
  if b then ['t', 'r', 'u', 'e'] else ['f', 'a', 'l', 's', 'e']

/-- The spaces in front of a line. -/
def indentation (level : Nat) : List Char :=
  List.replicate (2 * level) ' '

/-- Lines one level further in, with a comma behind each but the last. -/
def lines (level : Nat) : List (List Char) → List Char
  | [] => []
  | [item] => '\n' :: indentation level ++ item
  | item :: items => '\n' :: indentation level ++ item ++ ',' :: lines level items

/-- Items in brackets that stand at a level. -/
def bracketed (level : Nat) (opening closing : Char) (items : List (List Char)) : List Char :=
  match items with
  | [] => [opening, closing]
  | _ => opening :: lines (level + 1) items ++ '\n' :: indentation level ++ [closing]

/-- An object of members. -/
def objectText (level : Nat) (members : List (String × List Char)) : List Char :=
  bracketed level '\x7b' '\x7d' (members.map fun (name, value) => stringText name ++ ':' :: ' ' :: value)

/-- An array of values. -/
def arrayText (level : Nat) (items : List (List Char)) : List Char :=
  bracketed level '[' ']' items

end BootDisk.Json
