import BootDisk.FileTree.Lay
import BootDisk.Shell.Redirecting
import BootDisk.Shell.Utility.Arguments

/-!
# How programs go about their operands

A program does the same for each of its operands. What goes wrong with one of them is reported, and it goes on with the next; the code
that it ends with tells whether all went well.
-/

namespace BootDisk.Shell.Utility

/-! ## Reports -/

/-- The path of an operand. -/
def asPath (os : Octets) : Path :=
  ⟨toText os⟩

/-- Says something to the error output, after what was to be shown before it. -/
def remark (program : String) (what : Octets) : Sh Unit := do
  if ((← get).openFile? 1).any fun f => f.2.isWritable then
    let _ ← Sh.flush
  Sh.complain (ofText program ++ ofText ": " ++ what)

/-- Says something to the error output; the code is the one of a failure. -/
def refuse (program : String) (what : Octets) : Sh Nat := do
  remark program what
  return 1

/-- Reports what the system said about an operand. -/
def report (program : String) (what : Octets) (e : IoError) : Sh Nat :=
  refuse program (what ++ ofText ": " ++ ofText (errorText e))

/-- Says why a program cannot do what it is asked, and where to look for what it can. -/
def misused (program : String) (why : Octets) (code : Nat) : Sh Nat := do
  Sh.complain (ofText program ++ ofText ": " ++ why)
  Sh.complain (ofText s!"Try '{program} --help' for more information.")
  return code

/-! ## Operands -/

/-- Does something for every operand; the code is the greatest of them all. -/
def forAll (operands : List Octets) (act : Octets → Sh Nat) : Sh Nat := do
  return (← operands.mapM act).foldl max 0

/-- Runs a program on what it is given, unless that is not what it takes. -/
def withGiven (program : String) (known : Known) (args : List Octets) (act : Given → Sh Nat) : Sh Nat :=
  match known.sort args with
  | .ok g => act g
  | .error e => misused program e.message 1

/-- Runs a program on what it is given, which has to be an operand at least. -/
def withOperands (program : String) (known : Known) (args : List Octets) (act : Given → Sh Nat) : Sh Nat :=
  withGiven program known args fun g => if g.operands = [] then misused program (ofText "missing operand") 1 else act g

/-! ## Paths -/

/-- The last name of a path. -/
def lastName (os : Octets) : Octets :=
  let os := (os.reverse.dropWhile (· == '/')).reverse
  if os = [] then ['/'] else (os.reverse.takeWhile (· ≠ '/')).reverse

/-- The path above a path. -/
def above (os : Octets) : Octets :=
  let os := os.reverse.dropWhile (· == '/')
  let rest := os.dropWhile (· ≠ '/')
  let dir := rest.dropWhile (· == '/')
  if dir = [] then (if rest = [] ∧ os ≠ [] then ['.'] else ['/']) else dir.reverse

/-- A path below a directory. -/
def below (dir name : Octets) : Octets :=
  if dir.getLast? = some '/' then dir ++ name else dir ++ '/' :: name

/-- The paths of the directories that a path leads through, from the top. -/
def through (os : Octets) : List Octets :=
  (List.range os.length).filterMap fun n =>
    let rest := os.drop n
    if (os.take n).getLast?.all (· == '/') ∨ rest.head? ≠ some '/' ∨ rest.all (· == '/') then none else some (os.take n)

/-- Tries a call, and reports about an operand if it fails. -/
def attempt (program : String) (what : Octets) (call : Place → FileCall Unit) : Sh Nat := do
  match ← Sh.files call with
  | .ok () => return 0
  | .error e => report program what e

end BootDisk.Shell.Utility
