import BootDisk.Machine.Basic
import BootDisk.Shell.Running.Levels

/-!
# The programs of a host

A host with a shell and the small programs that scripts call. A command is started as the system starts it: in its directory, found
along the search path if it is no path itself, as what its file says it is.
-/

namespace BootDisk.Host

open Shell (Octets Sh Level Process)

/-- The tree of a host with nothing on it but its programs, the device, and a place for what is not to stay. -/
def tree : Tree :=
  let base : Tree :=
    ⟨[(["usr"], .directory), (["bin", "usr"], .directory), (["bin"], .link ⟨"usr/bin"⟩), (["dev"], .directory),
      (["null", "dev"], .device), (["tmp"], .directory)]⟩
  Shell.Utility.names.foldl
    (fun t name => t.put [name, "bin", "usr"] (.file ⟨.ofList (Shell.Image.nativeFile name), 0o755, 0⟩)) base

/-- The last value that a command gives to a variable. -/
def given? (c : Command) (name : String) : Option String :=
  c.env.reverse.lookup name

/-- The directory a command starts in. -/
def startPlace (c : Command) (s : Surroundings) (t : Tree) : Except OsError Place :=
  match c.dir with
  | none => .ok s.cwd
  | some d =>
    match t.entry s.cwd d .through with
    | .ok (place, .directory) => .ok place
    | .ok _ => .error .notDirectory
    | .error (.os e) => .error e
    | .error _ => .error .noEntry

/-- The paths that a program can be started from, in the order they are tried. -/
def programPaths (program : String) (searchPath : String) : List Path :=
  if program.toList.contains '/' then [⟨program⟩]
  else
    (Text.fields ':' searchPath.toList).map fun dir =>
      if dir = [] then ⟨program⟩ else ⟨String.ofList dir ++ "/" ++ program⟩

/-- Starts a program from the first path it can be started from. Where a path leads to nothing the next one is tried, and so it is where
the file may not be run; any other refusal is final. With `asScript` a file without a mark is taken for a script. -/
def startFrom (lv : Level) (program : Octets) (args : List Octets) (asScript : Bool) :
    OsError → Bool → List Path → Sh (Except OsError Status)
  | last, denied, [] => return .error (if denied then .denied else last)
  | _, denied, p :: ps => do
    match ← lv.execute p program args with
    | .ok s => return .ok s
    | .error .noEntry => startFrom lv program args asScript .noEntry denied ps
    | .error .notDirectory => startFrom lv program args asScript .notDirectory denied ps
    | .error .denied => startFrom lv program args asScript .denied true ps
    | .error .badExecutable =>
      if asScript then lv.execute ⟨"/bin/sh"⟩ (Shell.ofText "/bin/sh") (Shell.ofText p.text :: args)
      else return .error .badExecutable
    | .error e => return .error e

/-- The variables that a command starts with. -/
def startVars (c : Command) (searchPath : String) : List Shell.Variable :=
  let given := ("PATH", searchPath) :: c.env
  let start : Process := { tree := ⟨[]⟩, cwd := [] }
  let p := given.foldl
    (fun p v => p.putVariable { name := Shell.ofText v.1, value := some (Shell.ofText v.2), isExported := true }) start
  p.vars

/-- The process that a command is started in. It has no input, and its two outputs are kept apart. -/
def start (c : Command) (s : Surroundings) (t : Tree) (place : Place) : Process :=
  { tree := t
    cwd := place
    vars := startVars c s.searchPath
    opened := #[{ target := .device, isReadable := true }, { target := .out, isWritable := true }, { target := .err, isWritable := true }]
    files := [(0, 0), (1, 1), (2, 2)]
    parentProcess := Shell.firstProcess - 1
    process := Shell.firstProcess
    nextProcess := Shell.firstProcess + 1 }

/-- The interpreter of the host. -/
def interpreter : Level :=
  Shell.Running.level Shell.Running.maxDepth

/-- What comes of starting a command on the host. It is over when all that it has put off has been done. -/
def programs : Programs := fun c s t =>
  match startPlace c s t with
  | .error e => (.failed e, t)
  | .ok place =>
    if c.program = "" then (.failed .noEntry, t)
    else
      let ownPath := given? c "PATH"
      let paths := programPaths c.program (ownPath.getD s.searchPath)
      let asScript := ownPath.isSome && !c.program.toList.contains '/'
      let act : Sh (Except OsError Status) := do
        let ended ← startFrom interpreter (Shell.ofText c.program) (c.args.map Shell.ofText) asScript .noEntry false paths
        Shell.Running.catchUpAll interpreter
        return ended
      match act (start c s t place) with
      | .ok (.ok status) p => (.ended status p.out.toList p.err.toList, p.tree)
      | .ok (.error e) p => (.failed e, p.tree)
      | .error _ p => (.ended (.exited 2) p.out.toList p.err.toList, p.tree)

end BootDisk.Host
