import BootDisk.Shell.Process
import BootDisk.Text.Fields

/-!
# Looking for programs

Where the program of a name is: in the first directory of the search path that has a file of the name that may be run. The shell remembers
in which one that was, and does not look there again.
-/

namespace BootDisk.Shell

namespace Search

/-- The search path where none is given. -/
def usualPath : Octets :=
  "/usr/local/sbin:/usr/local/bin:/usr/sbin:/usr/bin:/sbin:/bin".toList

/-- The search path of a shell. -/
def path (p : Process) : Octets :=
  (p.valueOf? "PATH".toList).getD []

/-- The paths that a program of a name can be at, in the order of a search path. -/
def candidates (path name : Octets) : List Octets :=
  (Text.fields ':' path).map fun dir => if dir = [] then name else dir ++ '/' :: name

/-- Whether an error says that there is nothing at a path. -/
def isMissing (e : OsError) : Bool :=
  e == .noEntry || e == .notDirectory

/-- The shell's words for an error in starting a program. -/
def words (e : OsError) : String :=
  if isMissing e then "not found" else e.words

/-- The code for an error in starting a program. -/
def code (e : OsError) : Nat :=
  if isMissing e ∨ e = .tooManyLinks ∨ e = .nameTooLong then 127 else 126

/-- Why a path does not lead to a file that may be run, if it does not. -/
def refusal? (p : Process) (path : Octets) : Option OsError :=
  match p.tree.entry p.cwd ⟨toText path⟩ .through with
  | .error (.os e) => some e
  | .error _ => some .noEntry
  | .ok (_, .file f) => if Nat.land f.mode 0o111 = 0 then some .denied else none
  | .ok _ => some .denied

/-- The number of the first path, from a number on, that leads to a file that may be run; otherwise the last error that tells more than
that there is nothing. Where a program is known to be is taken for granted, if that does not depend on the working directory. -/
def first (p : Process) (known : Option Nat) : Nat → OsError → List Octets → Except OsError Nat
  | _, last, [] => .error last
  | n, last, path :: paths =>
    let order := known.filter (fun _ => path.head? == some '/') |>.map fun k => compare n k
    match order, refusal? p path with
    | some .eq, _ => .ok n
    | some .lt, _ => first p known (n + 1) last paths
    | _, none => .ok n
    | _, some e => first p known (n + 1) (if isMissing e then last else e) paths

/-- Looks for the program of a name along a search path. -/
def find (p : Process) (path name : Octets) : Except OsError Nat :=
  first p none 0 .noEntry (candidates path name)

/-- Looks for the program of a name, unless it is remembered where it is, and remembers it. -/
def remembering (name : Octets) : Sh (Except OsError Nat) := do
  let p ← get
  let known := p.hashed.find? fun h => h.name == name
  match known.filter fun h => !h.isStale with
  | some h => return .ok h.index
  | none =>
    let found := first p (known.map Hashed.index) 0 .noEntry (candidates (path p) name)
    let others := p.hashed.filter fun h => h.name != name
    let hashed :=
      match found, known with
      | .error _, _ => others
      | .ok index, none => p.hashed ++ [⟨name, index, false⟩]
      | .ok index, some _ => p.hashed.map fun h => if h.name == name then ⟨name, index, false⟩ else h
    modify fun p => { p with hashed := hashed }
    return found

/-- Forgets where the program of a name is. -/
def forget (name : Octets) : Sh Unit :=
  modify fun p => { p with hashed := p.hashed.filter fun h => h.name != name }

/-- How many rows the remembered programs are listed in. -/
def rows : Nat := 31

/-- The remembered programs as they are listed: where each of them was found, with a mark where that may have changed. -/
def listing (p : Process) : List Octets :=
  (Process.inRows rows Hashed.name p.hashed).map fun h =>
    ((candidates (path p) h.name)[h.index]?.getD h.name) ++ if h.isStale then ['*'] else []

end Search

end BootDisk.Shell
