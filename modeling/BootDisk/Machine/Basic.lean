import BootDisk.Failure
import BootDisk.FileTree.Calls

/-!
# The machine a run works on

All that a run can see and change: the file tree, the directory it works in, where programs are looked for, the clock, what it has
written, and which other programs it has started. An act changes the machine and may fail, and what it has changed by then stays.
-/

namespace BootDisk

/-- What a started program is given besides its command: the directory it starts in and where programs are looked for. -/
structure Surroundings where
  cwd : Place
  searchPath : String
  deriving DecidableEq, Repr, Inhabited

/-- What comes of starting a program: it did not start, or it ended, having written so much to its two outputs. -/
inductive Launch where
  | failed (error : OsError)
  | ended (status : Status) (out err : List UInt8)
  deriving DecidableEq, Repr

/-- How the programs of the host behave: what a command does in its surroundings to the file tree. -/
abbrev Programs := Command → Surroundings → Tree → Launch × Tree

/-- The state that a run works on. Outputs are kept as bytes, since other programs write to them too. -/
structure Machine where
  tree : Tree
  cwd : Place
  searchPath : String
  home : Path
  clock : Nat
  out : ByteArray := .empty
  err : ByteArray := .empty
  children : List Command := []
  deriving Inhabited

/-- The surroundings of a program that the machine starts. -/
def Machine.surroundings (m : Machine) : Surroundings :=
  ⟨m.cwd, m.searchPath⟩

/-- A change of the machine that may fail. -/
abbrev Act := EStateM Failure Machine

/-- Tells of every failure what was being done. -/
def during {σ α : Type} (a : Activity) (x : EStateM Failure σ α) : EStateM Failure σ α := fun s =>
  match x s with
  | .ok v s => .ok v s
  | .error f s => .error (f.during a) s

/-- Fails with a cause. -/
def fail {σ α : Type} (c : Cause) : EStateM Failure σ α :=
  throw { cause := c }

namespace Act

/-- A call on the file tree, made from the directory the machine works in. -/
def files {α : Type} (call : Place → FileCall α) : Act α := fun m =>
  match call m.cwd m.tree with
  | .ok v t => .ok v { m with tree := t }
  | .error e t => .error (.ofIo e) { m with tree := t }

/-- A look at the file tree, which changes nothing. -/
def look {α : Type} (question : Tree → Place → Except IoError α) : Act α := fun m =>
  match question m.tree m.cwd with
  | .ok v => .ok v m
  | .error e => .error (.ofIo e) m

/-- A yes-or-no look at the file tree. -/
def holds (question : Tree → Place → Bool) : Act Bool := fun m =>
  .ok (question m.tree m.cwd) m

/-- Writes a line to the standard output. -/
def print (line : String) : Act Unit :=
  modify fun m => { m with out := m.out ++ (line ++ "\n").toUTF8 }

/-- Writes a line to the standard error output. -/
def warn (line : String) : Act Unit :=
  modify fun m => { m with err := m.err ++ (line ++ "\n").toUTF8 }

end Act

end BootDisk
