import BootDisk.Shell.Process
import BootDisk.Shell.Splitting
import BootDisk.Shell.Sum

/-!
# Expanding words

From the parts of a word to the arguments they become: parameters, outputs and sums are put in, what they bring is split where it is not
quoted, and what is left is matched against the names in the tree. How a command is run and a word inside a word is expanded is given by
the level below.
-/

namespace BootDisk.Shell

/-- What a word is expanded for: arguments, so that values may become several of them; a pattern; or one text. A tilde at its start, and in
settings one behind a colon, stands for a directory. A word inside a parameter is split even where it is written out. -/
structure Purpose where
  arguments : Bool := false
  pattern : Bool := false
  tilde : Bool := false
  colons : Bool := false
  quoted : Bool := false
  inner : Bool := false
  deriving DecidableEq, Repr, Inhabited

/-- How a command stands among others: whether its failure is looked at, and whether there is nothing for the shell to do behind it. -/
structure Stance where
  isTested : Bool := false
  isLast : Bool := false
  deriving DecidableEq, Repr, Inhabited

/-- A level of the interpreter, as the level above it uses it: what runs a command and tells its code, what expands a word, what gives the
output of a command, and what starts the program at a path. -/
structure Level where
  run : Stance → Command → Sh Nat
  expand : Purpose → Word → Sh (List Stretch)
  output : Command → Sh Octets
  execute : Path → Octets → List Octets → Sh (Except OsError Status)

namespace Purpose

/-- For arguments. -/
def ofArguments : Purpose :=
  { arguments := true, tilde := true }

/-- For the value of a setting. -/
def ofSetting : Purpose :=
  { tilde := true, colons := true }

/-- For one text. -/
def ofText : Purpose :=
  { tilde := true }

/-- For a pattern. -/
def ofPattern : Purpose :=
  { tilde := true, pattern := true }

/-- For the lines of a document. -/
def ofDocument : Purpose :=
  { quoted := true }

end Purpose

namespace Expansion

/-! ## Tildes -/

/-- The directories of the users. -/
def homes : List (String × String) :=
  [("root", "/root"), ("daemon", "/usr/sbin"), ("bin", "/bin"), ("sys", "/dev"), ("sync", "/bin"), ("games", "/usr/games"),
    ("man", "/var/cache/man"), ("lp", "/var/spool/lpd"), ("mail", "/var/mail"), ("news", "/var/spool/news"),
    ("uucp", "/var/spool/uucp"), ("proxy", "/bin"), ("www-data", "/var/www"), ("backup", "/var/backups"), ("list", "/var/list"),
    ("nobody", "/nonexistent")]

/-- The directory that a name behind a tilde stands for. -/
def home? (p : Process) (name : Octets) : Option Octets :=
  if name = [] then p.valueOf? "HOME".toList else (homes.lookup (toText name)).map ofText

/-- What a tilde at the front of a text stands for, and what is behind its name. The name has to be at its end where the text is. -/
def tilde? (p : Process) (colons isLast : Bool) (os : Octets) : Option (Octets × Octets) :=
  match os with
  | '~' :: rest =>
    let name := rest.takeWhile fun c => c ≠ '/' && !(colons && c == ':')
    let behind := rest.drop name.length
    if behind = [] ∧ ¬ isLast then none else (home? p name).map fun dir => (dir, behind)
  | _ => none

/-- The octets that are written in a word, some of which may be split; kept ones are not. -/
def written (splits kept : Bool) (os : Octets) : Stretch :=
  ⟨if splits && !kept then .atSplitters else .whole, Mark.ofOctets kept os⟩

/-- Text with its tildes put in, in at most so many steps. -/
def text (p : Process) (purpose : Purpose) (splits isLast : Bool) : Nat → Bool → Octets → List Stretch
  | 0, _, os => [written splits false os]
  | n + 1, atStart, os =>
    match if atStart then tilde? p purpose.colons isLast os else none with
    | some (dir, behind) => .fixed (Mark.ofOctets true dir) :: text p purpose splits isLast n false behind
    | none =>
      let upTo := if purpose.colons then os.takeWhile (· ≠ ':') else os
      match os.drop upTo.length with
      | [] => if os = [] then [] else [written splits false os]
      | c :: rest => written splits false (upTo ++ [c]) :: text p purpose splits isLast n true rest

/-! ## Values -/

/-- Arguments with something in between. -/
def between (sep : List Mark) (kept : Bool) (args : List Octets) : List Mark :=
  sep.intercalate (args.map (Mark.ofOctets kept))

/-- What is put between arguments that become one. -/
def joint (p : Process) : Octets :=
  match p.valueOf? "IFS".toList with
  | some ifs => ifs.take 1
  | none => [' ']

/-- All arguments: as several where that is wanted, as one otherwise. -/
def arguments (p : Process) (name : Char) (purpose : Purpose) : List Mark :=
  let quoted := purpose.quoted
  if purpose.arguments then
    if quoted then
      if name = '@' then between [.seam] true p.args else between (Mark.ofOctets true (joint p)) true p.args
    else
      let sep := if (p.valueOf? "IFS".toList).isSome then [.seam] else [Mark.octet ' ' false]
      between sep false p.args
  else between (Mark.ofOctets quoted (joint p)) quoted p.args

/-- The letters of the options that are set. -/
def letters (p : Process) : Octets :=
  ShellOption.all.reverse.filterMap fun o => if p.has o.1 then o.2.2 else none

/-- The value of a parameter, if it has one. -/
def value? (p : Process) (purpose : Purpose) (name : Octets) : Option (List Mark) :=
  let plain (os : Octets) : List Mark := Mark.ofOctets purpose.quoted os
  match name with
  | ['@'] => some (arguments p '@' purpose)
  | ['*'] => some (arguments p '*' purpose)
  | ['#'] => some (plain (ofNat p.args.length))
  | ['?'] => some (plain (ofNat p.status))
  | ['$'] => some (plain (ofNat p.rootProcess))
  | ['-'] => some (plain (letters p))
  | ['!'] => p.lastBackground.map fun n => plain (ofNat n)
  | _ =>
    match toNat? name with
    | some 0 => some (plain p.name)
    | some (n + 1) => p.args[n]?.map plain
    | none => (p.valueOf? name).map plain

/-- What a value becomes in a word. -/
def brought (p : Process) (purpose : Purpose) (name : Octets) (ms : List Mark) : List Stretch :=
  if purpose.quoted then if name = ['@'] ∧ p.args ≠ [] then [⟨.atSeams, ms⟩] else [.fixed ms] else [⟨.atSplitters, ms⟩]

/-- Refuses a parameter without a value, if the script asked for that. -/
def checkSet (name : Octets) : Sh Unit := do
  if (← get).has .nounset then Sh.fault (name ++ ofText ": parameter not set")

/-- A word inside a parameter. -/
def innerWord (lv : Level) (purpose : Purpose) (w : Word) : Sh (List Stretch) :=
  lv.expand { purpose with tilde := true, inner := true } w

/-- Expands a parameter. -/
def parameter (lv : Level) (purpose : Purpose) (name : Octets) (use : Use) : Sh (List Stretch) := do
  let p ← get
  let value := value? p purpose name
  let present (orEmpty : Bool) : Option (List Mark) := value.filter fun ms => !(orEmpty && ms.isEmpty)
  match use with
  | .value orEmpty =>
    match present orEmpty with
    | some ms => return brought p purpose name ms
    | none =>
      checkSet name
      return []
  | .length =>
    if value.isNone then checkSet name
    return brought p purpose name (Mark.ofOctets purpose.quoted (ofNat (value.getD []).length))
  | .unknown _ => Sh.fault (ofText "Bad substitution")
  | .otherwise w orEmpty =>
    match present orEmpty with
    | some ms => return brought p purpose name ms
    | none => innerWord lv purpose w
  | .instead w orEmpty => if (present orEmpty).isSome then innerWord lv purpose w else return brought p purpose name []
  | .assign w orEmpty =>
    match present orEmpty with
    | some ms => return brought p purpose name ms
    | none =>
      Sh.assign name (Stretch.flat (← lv.expand Purpose.ofText w))
      let p ← get
      return brought p purpose name ((value? p purpose name).getD [])
  | .demand w orEmpty =>
    match present orEmpty with
    | some ms => return brought p purpose name ms
    | none =>
      let why := Stretch.flat (← lv.expand Purpose.ofText w)
      let usual := ofText (if orEmpty then "parameter not set or null" else "parameter not set")
      Sh.fault (name ++ ofText ": " ++ if w.isEmpty then usual else why)
  | .trim how w =>
    match value with
    | none =>
      checkSet name
      return []
    | some ms =>
      let pattern := Pattern.ofGlyphs (Stretch.glyphs (← lv.expand Purpose.ofPattern w))
      let os := Mark.flat ms
      let left := pattern.trim how.atStart how.longest os
      return brought p purpose name (if how.atStart then ms.drop (os.length - left.length) else ms.take left.length)

/-! ## Sums and outputs -/

/-- The way out of a sum that has no value. -/
def sumFault {α : Type} (text : Octets) (f : SumFault) : Sh α := do
  match f with
  | .illegalNumber os => Sh.illegalNumber os
  | .readOnly name => Sh.fault (name ++ ofText ": is read only")
  | .quotientTooLarge => throw (.killed Signal.arithmetic)
  | f => Sh.fault (ofText "arithmetic expression: " ++ ofText (f.inSum?.getD "") ++ ofText ": \"" ++ text ++ ofText "\"")

/-- The value of a sum, put in its place. -/
def sum (lv : Level) (purpose : Purpose) (parts : Word) : Sh (List Stretch) := do
  let text := Stretch.flat (← lv.expand {} parts)
  let p ← get
  let (result, sets) := Sum.value ⟨p.valueOf?, p.isReadOnly⟩ text
  sets.reverse.forM fun s => Sh.setVariable s.1 s.2 false
  match result with
  | .ok n => return brought p purpose [] (Mark.ofOctets purpose.quoted (ofInt n))
  | .error f => sumFault text f

/-- A text without the line ends at its end and without zeros. -/
def asOutput (os : Octets) : Octets :=
  ((os.filter (· ≠ '\x00')).reverse.dropWhile (· == '\n')).reverse

/-- What a command writes, put in its place. -/
def output (lv : Level) (purpose : Purpose) : Option Command → Sh (List Stretch)
  | none => return if purpose.quoted then [] else [⟨.atSplitters, []⟩]
  | some c => do
    let os := asOutput (← lv.output c)
    return brought (← get) purpose [] (Mark.ofOctets purpose.quoted os)

/-! ## Words -/

/-- Where a part of a word stands: outside of quotes, inside, or inside those that hold nothing but all arguments. -/
inductive Quotes where
  | outside
  | inside
  | aroundArguments
  deriving DecidableEq, Repr, Inhabited

/-- Whether parts begin with all arguments and closing quotes. -/
def holdsArguments : List Part → Bool
  | .parameter ['@'] (.value false) :: .quote :: _ => true
  | _ => false

/-- Where the parts behind a quote stand, and the mark that the quote leaves. Quotes that hold nothing but all arguments leave none, so
that nothing is there if there is no argument. -/
def Quotes.behind (q : Quotes) (rest : List Part) : Quotes × List Stretch :=
  match q with
  | outside => if holdsArguments rest then (aroundArguments, []) else (inside, [.fixed [.quote]])
  | inside => (outside, [.fixed [.quote]])
  | aroundArguments => (outside, [])

/-- Expands a part that is no quote. -/
def part (lv : Level) (purpose : Purpose) (atStart isLast : Bool) : Part → Sh (List Stretch)
  | .quote => return []
  | .text os true => return [.fixed (Mark.ofOctets true os)]
  | .text os false => do
    return text (← get) purpose (purpose.inner && !purpose.quoted) isLast (os.length + 1) (atStart && purpose.tilde) os
  | .parameter name use => parameter lv purpose name use
  | .output c => output lv purpose c
  | .sum ps => sum lv purpose ps

/-- Expands parts, the first of which are at the start of the word or not, and stand where they do. -/
def parts (lv : Level) (purpose : Purpose) : Bool → Quotes → List Part → Sh (List Stretch)
  | _, _, [] => return []
  | atStart, q, p :: rest => do
    match p with
    | .quote =>
      let (q, here) := q.behind rest
      return here ++ (← parts lv purpose false q rest)
    | p =>
      let here ← part lv { purpose with quoted := purpose.quoted || q ≠ .outside } atStart rest.isEmpty p
      return here ++ (← parts lv purpose false q rest)

/-- Expands a word. -/
def word (lv : Level) (purpose : Purpose) (w : Word) : Sh (List Stretch) :=
  parts lv purpose true .outside w

/-! ## Names in the tree -/

/-- Glyphs cut at the slashes. -/
def steps : List Glyph → List (List Glyph)
  | [] => [[]]
  | g :: gs =>
    if g.octet = '/' then [] :: steps gs
    else
      match steps gs with
      | [] => [[g]]
      | s :: ss => (g :: s) :: ss

/-- The names in a directory that a pattern stands for, in order. Those that start with a dot have to be asked for by it. -/
def matching (p : Process) (dir : Octets) (s : List Glyph) : List Octets :=
  let pattern := Pattern.ofGlyphs s
  let asksForDot := (Pattern.unescaped s).head?.map Glyph.octet == some '.'
  match p.tree.entry p.cwd ⟨toText (if dir = [] then ['.'] else dir)⟩ .through with
  | .ok (place, .directory) =>
    let names := (p.tree.names place).map ofText
    let names := if asksForDot then ['.'] :: ['.', '.'] :: names else names.filter fun n => n.head? ≠ some '.'
    (names.filter pattern.covers).mergeSort precedes
  | _ => []

/-- Whether a path leads anywhere, be it a link that leads nowhere. -/
def leadsAnywhere (p : Process) (path : Octets) : Bool :=
  (p.tree.entry p.cwd ⟨toText path⟩ .itself).isOk

/-- The paths that the steps of a pattern lead to from a path. -/
def paths (p : Process) : List (List Glyph) → Octets → List Octets
  | [], sofar => [sofar]
  | [s], sofar =>
    if Pattern.isOpen s then (matching p sofar s).map (sofar ++ ·)
    else
      let path := sofar ++ octets (Pattern.unescaped s)
      if leadsAnywhere p path then [path] else []
  | s :: ss, sofar =>
    if Pattern.isOpen s then (matching p sofar s).flatMap fun n => paths p ss (sofar ++ n ++ ['/'])
    else paths p ss (sofar ++ octets (Pattern.unescaped s) ++ ['/'])

/-- The arguments that a field becomes when it is matched against names; one that matches none stays as it is. -/
def matched (p : Process) (field : List Mark) : List Octets :=
  let gs := Mark.glyphs field
  if !p.has .noglob && (steps gs).any Pattern.isOpen then
    match paths p (steps gs) [] with
    | [] => [octets gs]
    | found => found.mergeSort precedes
  else [octets gs]

/-! ## What words become -/

/-- The arguments that a word becomes. -/
def argumentsOf (lv : Level) (w : Word) : Sh (List Octets) := do
  let ss ← lv.expand Purpose.ofArguments w
  let p ← get
  return (Fields.ofStretches p.splitters none ss).flatMap (matched p)

/-- The one text that a word becomes where there is no choice. -/
def single (lv : Level) (purpose : Purpose) (w : Word) : Sh Octets := do
  return Stretch.flat (← lv.expand purpose w)

/-- The pattern that a word becomes. -/
def patternOf (lv : Level) (w : Word) : Sh Pattern := do
  return Pattern.ofGlyphs (Stretch.glyphs (← lv.expand Purpose.ofPattern w))

end Expansion

end BootDisk.Shell
