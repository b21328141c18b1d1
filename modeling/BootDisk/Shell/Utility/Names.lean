import BootDisk.Shell.Octets

/-!
# Names in reports

How a program writes a name that it reports about, so that it can be told where the name ends and what is in it: between quotes, or
as a shell would have to be given it.
-/

namespace BootDisk.Shell.Utility

/-- The octets that can be shown as they are. -/
def isShown (c : Char) : Bool :=
  32 ≤ c.toNat && c.toNat < 127

/-- An octet that cannot be shown, as a letter or a number behind a backslash. -/
def escaped (c : Char) : Octets :=
  let known : List (Char × Char) := [('\x07', 'a'), ('\x08', 'b'), ('\x0c', 'f'), ('\n', 'n'), ('\r', 'r'), ('\t', 't'), ('\x0b', 'v')]
  match known.lookup c with
  | some letter => ['\\', letter]
  | none =>
    let digits := Nat.toDigits 8 c.toNat
    '\\' :: List.replicate (3 - digits.length) '0' ++ digits

/-- An argument as reports show it between quotes. -/
def quotedName (os : Octets) : Octets :=
  '\'' :: (os.flatMap fun c => if !isShown c then escaped c else if c = '\'' ∨ c = '\\' then ['\\', c] else [c]) ++ ['\'']

/-- The octets that mean something to a shell wherever they stand. -/
def isMeant (c : Char) : Bool :=
  [' ', '!', '"', '$', '&', '\'', '(', ')', '*', ':', ';', '<', '=', '>', '?', '[', '\\', '^', Shell.backquote, '|'].contains c

/-- Whether a name would mean something else to a shell, or nothing, if it stood there as it is. -/
def needsQuotes (os : Octets) : Bool :=
  match os with
  | [] => true
  | c :: cs =>
    c == '#' || c == '~' || (cs.isEmpty && (c == '\x7b' || c == '\x7d')) || os.any fun c => isMeant c || !isShown c

/-- Whether double quotes keep all of a name. -/
def fitsDoubleQuotes (os : Octets) : Bool :=
  os.all fun c => c == ' ' || c == '\'' || c == ':' || (isShown c && !isMeant c)

/-- The inside of a name in single quotes. What cannot be shown is put between quotes of its own, which are open or not. -/
def inSingleQuotes : Bool → Octets → Octets
  | _, [] => []
  | isOpen, c :: cs =>
    if isShown c then (if isOpen then ['\'', '\''] else []) ++ (if c = '\'' then ofText "'\\''" else [c]) ++ inSingleQuotes false cs
    else (if isOpen then [] else ofText "'$'") ++ escaped c ++ inSingleQuotes true cs

/-- An argument as a shell would have to be given it, in quotes whether it needs them or not. -/
def wordName (os : Octets) : Octets :=
  if os.contains '\'' && fitsDoubleQuotes os then '"' :: os ++ ['"']
  else '\'' :: inSingleQuotes false os ++ ['\'']

/-- An argument as reports show it where no quotes are called for: as it is, or as a shell would have to be given it. -/
def plainName (os : Octets) : Octets :=
  if needsQuotes os then wordName os else os

end BootDisk.Shell.Utility
