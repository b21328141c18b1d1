import BootDisk.Shell.Builtin.Options
import BootDisk.Text.Fields

/-!
# The working directory and new files

The commands of the shell that change the working directory and tell it, and the one for the bits that new files do not get. The shell
keeps the path that it came by, so that a link on the way shows in it; the place itself is kept beside it.
-/

namespace BootDisk.Shell

namespace Places

/-- A path as a directory that there is. -/
def directory? (p : Process) (path : Octets) : Option Place :=
  match p.tree.entry p.cwd ⟨toText path⟩ .through with
  | .ok (place, .directory) => some place
  | _ => none

/-- The names of a path taken up one after the other, the last one first; two dots take the one before away. -/
def takenUp (sofar : List Octets) : List Octets → List Octets
  | [] => sofar
  | n :: ns =>
    if n = [] ∨ n = ['.'] then takenUp sofar ns
    else if n = ['.', '.'] then takenUp sofar.tail ns
    else takenUp (n :: sofar) ns

/-- A path without dots, as it is seen from a directory that has none; two slashes at the front stay. -/
def normal (directory path : Octets) : Octets :=
  let isAbsolute := path.head? = some '/'
  let from_ := if isAbsolute then path else directory
  let two := (from_.take 2 = ['/', '/'] ∧ from_[2]? ≠ some '/')
  let names := Text.fields '/' (if isAbsolute then path else directory ++ '/' :: path)
  (if two then ['/'] else []) ++ '/' :: ['/'].intercalate (takenUp [] names).reverse

/-- Whether a path says by itself where it starts. -/
def isRooted (path : Octets) : Bool :=
  match path with
  | '/' :: _ => true
  | ['.'] => true
  | '.' :: '/' :: _ => true
  | ['.', '.'] => true
  | '.' :: '.' :: '/' :: _ => true
  | _ => false

/-- The directories that a path without a start is looked for in, as it is written in the variable for them; the last one is the working
directory. -/
def candidates (p : Process) (path : Octets) : List (Octets × Bool) :=
  match p.valueOf? "CDPATH".toList with
  | none => [(path, false)]
  | some dirs =>
    (Text.fields ':' dirs).map fun dir =>
      if dir = [] then (path, false) else (if dir.getLast? = some '/' then dir ++ path else dir ++ '/' :: path, true)

/-- Goes to a path; says whether it leads to a directory. -/
def go (physical : Bool) (path : Octets) : Sh Bool := do
  let p ← get
  let target := if physical then path else normal p.directory path
  match directory? p target with
  | none => return false
  | some place =>
    Sh.setVariable "OLDPWD".toList p.directory true
    let directory := if physical then Process.pathOf place else target
    modify fun p =>
      { p with cwd := place, directory := directory, hashed := p.hashed.map fun h => { h with isStale := true } }
    Sh.setVariable "PWD".toList directory true
    return true

/-- Whether the last of the options for paths asks for the place itself. -/
def isPhysical (g : GivenOptions) : Bool :=
  (g.letters.getLast?.map Prod.fst) == some 'P'

end Places

/-- Changes the working directory. -/
def cd (args : List Octets) : Sh Nat := do
  let g ← givenOptions [('L', false), ('P', false)] args
  let p ← get
  let physical := Places.isPhysical g
  let (target, isBack) :=
    match g.args with
    | [] => ((p.valueOf? "HOME".toList).getD [], false)
    | ['-'] :: _ => ((p.valueOf? "OLDPWD".toList).getD [], true)
    | a :: _ => (a, false)
  let target := if target = [] then ['.'] else target
  let found :=
    if Places.isRooted target then none else (Places.candidates p target).find? fun c => (Places.directory? p c.1).isSome
  let (path, isShown) := found.getD (target, false)
  if ← Places.go physical path then
    if isShown || isBack then Sh.sayLine (← get).directory
    return 0
  else Sh.fault (ofText "can't cd to " ++ target)

/-- Tells the working directory. -/
def pwd (args : List Octets) : Sh Nat := do
  let g ← givenOptions [('L', false), ('P', false)] args
  let p ← get
  Sh.sayLine (if Places.isPhysical g then Process.pathOf p.cwd else p.directory)
  return 0

namespace Mask

/-- The bits that a mask leaves to the user, the group and others. -/
def symbolic (mask : Nat) : Octets :=
  let bits (shift : Nat) : Octets :=
    [(4, 'r'), (2, 'w'), (1, 'x')].filterMap fun (bit, c) => if Nat.land (mask >>> shift) bit = 0 then some c else none
  ofText "u=" ++ bits 6 ++ ofText ",g=" ++ bits 3 ++ ofText ",o=" ++ bits 0

/-- A mask in base eight with at least four digits. -/
def octal (mask : Nat) : Octets :=
  let digits := Nat.toDigits 8 mask
  List.replicate (4 - digits.length) '0' ++ digits

/-- All of the bits of a kind, for those who are meant. -/
def spread (who : Octets) (bits : Nat) : Nat :=
  let all := who = [] ∨ who.contains 'a'
  (if all ∨ who.contains 'u' then bits <<< 6 else 0) + (if all ∨ who.contains 'g' then bits <<< 3 else 0) +
    if all ∨ who.contains 'o' then bits else 0

/-- The bits that letters stand for; letters for users stand for the bits these have. -/
def permissions (allowed : Nat) (os : Octets) : Nat :=
  os.foldl
    (fun n c =>
      Nat.lor n
        (match c with
        | 'r' => 4
        | 'w' => 2
        | 'x' => 1
        | 'X' => if Nat.land allowed 0o111 = 0 then 0 else 1
        | 'u' => Nat.land (allowed >>> 6) 7
        | 'g' => Nat.land (allowed >>> 3) 7
        | 'o' => Nat.land allowed 7
        | _ => 0))
    0

/-- Takes the changes that follow those who are meant, in at most so many steps. -/
def changes (who : Octets) : Nat → Nat → Octets → Option Nat
  | 0, _, _ => none
  | _ + 1, allowed, [] => some allowed
  | n + 1, allowed, op :: os =>
    let letters := os.takeWhile ['r', 'w', 'x', 'X', 's', 't', 'u', 'g', 'o'].contains
    let bits := spread who (permissions allowed letters)
    let rest := os.drop letters.length
    match op with
    | '+' => changes who n (Nat.lor allowed bits) rest
    | '-' => changes who n (Nat.land allowed (0o777 - bits)) rest
    | '=' => changes who n (Nat.lor (Nat.land allowed (0o777 - spread who 7)) bits) rest
    | _ => none

/-- The bits that are allowed after one clause of a mode. -/
def clause (allowed : Nat) (os : Octets) : Option Nat :=
  let who := os.takeWhile ['u', 'g', 'o', 'a'].contains
  let rest := os.drop who.length
  if rest = [] then none else changes who (rest.length + 1) allowed rest

/-- The mask that a mode makes of a mask. -/
def ofMode? (mask : Nat) (mode : Octets) : Option Nat :=
  ((Text.fields ',' mode).foldlM clause (0o777 - Nat.land mask 0o777)).map (0o777 - ·)

end Mask

/-- Tells or sets the bits that new files do not get. -/
def umask (args : List Octets) : Sh Nat := do
  let g ← givenOptions [('S', false)] args
  let p ← get
  match g.args with
  | [] =>
    Sh.sayLine (if g.has 'S' then Mask.symbolic p.mask else Mask.octal p.mask)
    return 0
  | mode :: _ =>
    if mode.head?.any Char.isDigit then
      if mode.all fun c => '0' ≤ c && c ≤ '7' then
        let n := Number.valueOf 8 mode
        modify fun p => { p with mask := Nat.land n 0o777 }
        return 0
      else Sh.illegalNumber mode
    else
      match Mask.ofMode? p.mask mode with
      | some n =>
        modify fun p => { p with mask := n }
        return 0
      | none => Sh.fault (ofText "Illegal mode: " ++ mode)

end BootDisk.Shell
