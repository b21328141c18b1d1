import BootDisk.Shell.Utility.Basic

/-!
# Making, copying, moving and taking away files

The programs that change the file tree. A program that puts files somewhere puts them into a directory, if there is one at the place, and
takes the place for the name of the one file otherwise.
-/

namespace BootDisk.Shell.Utility

/-! ## Directories -/

/-- Tells that a directory was made, if that is wanted. -/
def tellMade (isTold : Bool) (os : Octets) : Sh Unit := do
  if isTold then Sh.say (ofText "mkdir: created directory " ++ wordName os ++ ['\n'])

/-- Makes a directory that others are to be made in, unless it is there; says what stands against it. -/
def makeOnTheWay (isTold : Bool) (os : Octets) : Sh (Option IoError) := do
  let name := lastName os
  if name = ['.'] then return none
  let made ← if name = ['.', '.'] then pure (.ok ()) else Sh.files fun cwd => FileCall.makeDirectory cwd (asPath os)
  if made matches .ok () then tellMade (isTold && name ≠ ['.', '.']) os
  let p ← get
  match p.tree.stat p.cwd (asPath os), made with
  | .ok .directory, _ => return none
  | .ok _, _ => return some (.os .notDirectory)
  | .error (.os .noEntry), .error e => return some e
  | .error e, _ => return some e

/-- Makes the directories on the way to a path; says which of them could not be made, and why. -/
def makeWay (isTold : Bool) : List Octets → Sh (Option (Octets × IoError))
  | [] => return none
  | os :: rest => do
    match ← makeOnTheWay isTold os with
    | none => makeWay isTold rest
    | some e => return some (os, e)

/-- What is said of a directory that cannot be made. -/
def notMade (os : Octets) : Octets :=
  ofText "cannot create directory " ++ quotedName os

/-- Makes the last directory of a path. If that is all that is wanted, one that is there will do. -/
def makeLast (isTold isLenient : Bool) (os : Octets) : Sh Nat := do
  match ← Sh.files fun cwd => FileCall.makeDirectory cwd (asPath os) with
  | .ok () =>
    tellMade isTold os
    return 0
  | .error e =>
    let p ← get
    match isLenient, p.tree.stat p.cwd (asPath os) with
    | true, .ok .directory => return 0
    | true, .error (.os .tooManyLinks) =>
      if e = .os .alreadyExists then report "mkdir" (ofText "cannot stat " ++ quotedName os) (.os .tooManyLinks)
      else report "mkdir" (notMade os) e
    | _, _ => report "mkdir" (notMade os) e

/-- Whether a text can be a mode: a number of octal digits, or a sign that says how bits change. -/
def isMode (os : Octets) : Bool :=
  if os.head?.any Char.isDigit then (takeOctal 4 0 os).2.isEmpty else os.any ['+', '-', '='].contains

/-- Makes directories, with those above them if asked to. -/
def mkdir (args : List Octets) : Sh Nat := do
  let known : Known := ⟨"pv".toList, ['m'], [("mode", 'm'), ("parents", 'p'), ("verbose", 'v')]⟩
  withOperands "mkdir" known args fun g => do
    match g.value? 'm' with
    | some m => if !isMode m then return ← refuse "mkdir" (ofText "invalid mode " ++ quotedName m)
    | none => pure ()
    forAll g.operands fun a => do
      match ← if g.has 'p' then makeWay (g.has 'v') (through a) else pure none with
      | some (os, e) => report "mkdir" (notMade os) e
      | none => makeLast (g.has 'v') (g.has 'p') a

/-- Takes away empty directories. -/
def rmdir (args : List Octets) : Sh Nat :=
  withOperands "rmdir" ⟨[], [], []⟩ args fun g =>
    forAll g.operands fun a => do
      let p ← get
      let what := ofText "failed to remove " ++ quotedName a
      match p.tree.entry p.cwd (asPath a) .never with
      | .error e => report "rmdir" what e
      | .ok (place, .directory) =>
        if (p.tree.names place).isEmpty then
          set { p with tree := p.tree.erase place }
          return 0
        else refuse "rmdir" (what ++ ofText ": Directory not empty")
      | .ok _ => report "rmdir" what (.os .notDirectory)

/-- Takes away files, and directories with all that is in them if asked to. -/
def rm (args : List Octets) : Sh Nat :=
  withGiven "rm" ⟨['f', 'r', 'R'], [], [("force", 'f'), ("recursive", 'r')]⟩ args fun g => do
    let whole := g.has 'r' || g.has 'R'
    if g.operands = [] ∧ !g.has 'f' then misused "rm" (ofText "missing operand") 1
    else
      forAll g.operands fun a => do
        if whole ∧ [['.'], ['.', '.']].contains (lastName a) then
          refuse "rm" (ofText "refusing to remove '.' or '..' directory: skipping " ++ quotedName a)
        else
          match ← Sh.files fun cwd => if whole then FileCall.removeAny cwd (asPath a) else FileCall.removeFile cwd (asPath a) with
          | .ok () => return 0
          | .error e =>
            if g.has 'f' ∧ (e = .os .noEntry ∨ e = .os .notDirectory) then return 0
            else report "rm" (ofText "cannot remove " ++ quotedName a) e

/-! ## Files and where they go -/

/-- Puts what is said to be put somewhere, each to where it goes. The place is the last operand. Without one, and with more than one thing
to put at what is no directory, nothing is done. -/
def intoPlace (program : String) (g : Given) (put : Octets → Octets → Sh Nat) : Sh Nat := do
  let p ← get
  match g.operands.reverse with
  | [] => misused program (ofText "missing file operand") 1
  | [a] => misused program (ofText "missing destination file operand after " ++ quotedName a) 1
  | place :: sources =>
    if p.tree.isDirectory p.cwd (asPath place) then forAll sources.reverse fun a => put a (below place (lastName a))
    else
      match sources with
      | [a] => put a place
      | _ =>
        let why :=
          match p.tree.stat p.cwd (asPath place) with
          | .error e => e
          | .ok _ => .os .notDirectory
        report program (ofText "target " ++ quotedName place) why

/-- The place that a path leads to, whether there is something or not. -/
def placeOf? (p : Process) (os : Octets) : Option Place :=
  match p.tree.arrive p.cwd (asPath os) .never with
  | .ok (.found place _ _) => some place
  | .ok (.vacant parent name _) => some (name :: parent)
  | .error _ => none

/-- The tree with all that is at a place, and below it, at another place as well. -/
def withCopy (t : Tree) (origin goal : Place) : Tree :=
  (t.entries.filter fun e => origin.isSuffixOf e.1).foldl
    (fun t e => t.put (e.1.take (e.1.length - origin.length) ++ goal) e.2) t

/-- Whether two operands are the same file. -/
def areSame (p : Process) (a b : Octets) : Bool :=
  match p.tree.entry p.cwd (asPath a) .through, p.tree.entry p.cwd (asPath b) .through with
  | .ok (x, _), .ok (y, _) => x = y
  | _, _ => false

/-- What is said of two operands that are the same file. -/
def sameFile (a b : Octets) : Octets :=
  quotedName a ++ ofText " and " ++ quotedName b ++ ofText " are the same file"

/-- What is said of a directory that is to be put where something else is. -/
def notOverwritten (source target : Octets) : Octets :=
  ofText "cannot overwrite non-directory " ++ quotedName target ++ ofText " with directory " ++ quotedName source

/-- Copies one file, or a directory with all that is in it if asked to; a copy has the bits of its source if it is new, or if they are to be
kept. -/
def copyOne (isWhole keepsBits : Bool) (source target : Octets) : Sh Nat := do
  let p ← get
  match p.tree.entry p.cwd (asPath source) .through with
  | .error e => report "cp" (ofText "cannot stat " ++ quotedName source) e
  | .ok (origin, .directory) =>
    if !isWhole then refuse "cp" (ofText "-r not specified; omitting directory " ++ quotedName source)
    else
      match placeOf? p target with
      | none => report "cp" (ofText "cannot create directory " ++ quotedName target) (.os .noEntry)
      | some goal =>
        if (p.tree.node? goal).any fun n => !n.isDirectory then refuse "cp" (notOverwritten source target)
        else
          set { p with tree := withCopy p.tree origin goal }
          if origin.isSuffixOf goal then
            refuse "cp" (ofText "cannot copy a directory, " ++ quotedName source ++ ofText ", into itself, " ++ quotedName target)
          else return 0
  | .ok (_, .file f) =>
    if areSame p source target then refuse "cp" (sameFile source target)
    else
      attempt "cp" (ofText "cannot create regular file " ++ quotedName target) fun cwd => do
        let (place, n) ← FileCall.openCreate cwd (asPath target) (Nat.land f.mode (0o777 - p.mask))
        FileCall.store place n f.content
        if keepsBits then FileCall.setMode cwd (asPath target) f.mode
  | .ok _ =>
    attempt "cp" (ofText "cannot create regular file " ++ quotedName target) fun cwd => FileCall.writeAll cwd (asPath target) .empty

/-- Copies files. -/
def cp (args : List Octets) : Sh Nat :=
  withGiven "cp" ⟨"afprR".toList, [], [("archive", 'a'), ("force", 'f'), ("recursive", 'r')]⟩ args fun g =>
    intoPlace "cp" g (copyOne (['a', 'r', 'R'].any g.has) (['a', 'p'].any g.has))

/-- Moves one file or directory. -/
def moveOne (source target : Octets) : Sh Nat := do
  let p ← get
  match p.tree.entry p.cwd (asPath source) .never, placeOf? p target with
  | .error e, _ => report "mv" (ofText "cannot stat " ++ quotedName source) e
  | .ok _, none =>
    report "mv" (ofText "cannot move " ++ quotedName source ++ ofText " to " ++ quotedName target) (.os .noEntry)
  | .ok (origin, n), some goal =>
    if origin = goal then refuse "mv" (sameFile source target)
    else if n.isDirectory ∧ origin.isSuffixOf goal then
      refuse "mv" (ofText "cannot move " ++ quotedName source ++ ofText " to a subdirectory of itself, " ++ quotedName target)
    else if n.isDirectory ∧ (p.tree.node? goal).any fun n => !n.isDirectory then refuse "mv" (notOverwritten source target)
    else if (p.tree.names goal).length ≠ 0 then
      refuse "mv" (ofText "cannot overwrite " ++ quotedName target ++ ofText ": Directory not empty")
    else
      set { p with tree := (withCopy (p.tree.prune goal) origin goal).prune origin }
      return 0

/-- Moves files and directories. -/
def mv (args : List Octets) : Sh Nat :=
  withGiven "mv" ⟨['f'], [], [("force", 'f')]⟩ args fun g => intoPlace "mv" g moveOne

/-- Makes one link at a path. A link that is not symbolic is a second name for the file, which stands for it as it is now. -/
def linkOne (isSymbolic isForced : Bool) (source target : Octets) : Sh Nat := do
  let p ← get
  let kind := ofText (if isSymbolic then "symbolic" else "hard")
  match if isSymbolic then .ok (.link (asPath source)) else (p.tree.entry p.cwd (asPath source) .never).map Prod.snd with
  | .error e => report "ln" (ofText "failed to access " ++ quotedName source) e
  | .ok .directory => refuse "ln" (plainName source ++ ofText ": hard link not allowed for directory")
  | .ok n =>
    attempt "ln" (ofText "failed to create " ++ kind ++ ofText " link " ++ quotedName target) fun cwd => do
      if isForced then
        try FileCall.removeFile cwd (asPath target) catch _ => pure ()
      let (place, _) ← FileCall.openNew cwd (asPath target)
      modify fun t => t.put place n

/-- Makes links, in the directory at hand if no place is given. -/
def ln (args : List Octets) : Sh Nat :=
  withGiven "ln" ⟨['f', 's'], [], [("force", 'f'), ("symbolic", 's')]⟩ args fun g =>
    match g.operands with
    | [a] => linkOne (g.has 's') (g.has 'f') a (below ['.'] (lastName a))
    | _ => intoPlace "ln" g (linkOne (g.has 's') (g.has 'f'))

/-- Makes files where there are none, unless asked not to. -/
def touch (args : List Octets) : Sh Nat :=
  withGiven "touch" ⟨['a', 'c', 'f', 'm'], [], [("no-create", 'c')]⟩ args fun g => do
    if g.operands = [] then misused "touch" (ofText "missing file operand") 1
    else
      forAll g.operands fun a => do
        let p ← get
        if p.tree.isDirectory p.cwd (asPath a) ∨ g.has 'c' then return 0
        else
          attempt "touch" (ofText "cannot touch " ++ quotedName a) fun cwd => do
            let _ ← FileCall.openCreate cwd (asPath a) (Lead.newBits p)

/-! ## Permission bits -/

/-- The permission bits that a mode makes of those a file has. -/
def modeFrom (mode : Octets) (bits : Nat) : Option Nat :=
  match takeOctal 4 0 mode with
  | (n, []) => some n
  | _ =>
    match String.ofList mode with
    | "+x" | "a+x" => some (Nat.lor bits 0o111)
    | "u+x" => some (Nat.lor bits 0o100)
    | "-x" | "a-x" => some (Nat.land bits 0o666)
    | "+w" | "u+w" => some (Nat.lor bits 0o200)
    | "-w" | "a-w" => some (Nat.land bits 0o555)
    | _ => none

/-- Changes permission bits. -/
def chmod (args : List Octets) : Sh Nat := do
  match args with
  | [] => misused "chmod" (ofText "missing operand") 1
  | [mode] => misused "chmod" (ofText "missing operand after " ++ quotedName mode) 1
  | mode :: paths =>
    if (modeFrom mode 0).isNone then misused "chmod" (ofText "invalid mode: " ++ quotedName mode) 1
    else
      forAll paths fun a => do
        let p ← get
        let bits :=
          match p.tree.stat p.cwd (asPath a) with
          | .ok (.file f) => f.mode
          | _ => 0o755
        attempt "chmod" (ofText "cannot access " ++ quotedName a) fun cwd =>
          FileCall.setMode cwd (asPath a) ((modeFrom mode bits).getD bits)

end BootDisk.Shell.Utility
