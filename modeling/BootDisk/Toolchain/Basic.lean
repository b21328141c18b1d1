import BootDisk.Container
import BootDisk.Profile

/-!
# Toolchains

What staging and assembling ask of the outside: to compile a program, to strip binaries, to forget the cached kernel, to build the boot
image, to create a container. A toolchain is any way to do these; what it was asked is recorded, call by call, beside the machine, so
that a toolchain cannot reach the record.
-/

namespace BootDisk

/-- A way to do what staging and assembling need done. -/
structure Toolchain where
  compile : String → Profile → Act Path
  strip : List Path → Act Unit
  invalidate : Act Unit
  embed : Profile → Act Path
  create : Path → Nat → Act Unit := Container.create
  matchesHost : Bool

/-- What a toolchain was asked to do. -/
inductive ToolCall where
  | compile (name : String) (profile : Profile)
  | strip (paths : List Path)
  | invalidate
  | embed (profile : Profile)
  | create (path : Path) (size : Nat)
  deriving DecidableEq, Repr

/-- A machine, and what was asked of toolchains on it, in order. -/
structure Session where
  machine : Machine
  calls : List ToolCall := []
  deriving Inhabited

/-- Work on a machine that also calls toolchains. -/
abbrev Run := EStateM Failure Session

/-- An act as work that calls no toolchain. -/
def Act.toRun {α : Type} (x : Act α) : Run α := fun s =>
  match x s.machine with
  | .ok v m => .ok v { s with machine := m }
  | .error f m => .error f { s with machine := m }

instance : MonadLift Act Run := ⟨Act.toRun⟩

/-- Has a toolchain do something; the call is recorded whatever comes of it. -/
def Run.call {α : Type} (c : ToolCall) (x : Act α) : Run α := do
  modify fun s => { s with calls := s.calls ++ [c] }
  x

namespace Container

/-- Makes sure that there is a container: one that is there already is used as it is, whatever its length, and where nothing is found
one of exactly `capacity` bytes is created. -/
def ensure (tools : Toolchain) (path : Path) (capacity : Nat) : Run State := fun s =>
  match s.machine.tree.stat s.machine.cwd path with
  | .ok (.file f) => .ok (.reused f.content.length) s
  | .ok _ => .error { cause := .containerNotRegular path } s
  | .error (.os .noEntry) => create s
  | .error e => .error { activities := [.inspectingContainer path], cause := .io e } s
where
  /-- Has the container created and looks at what was created. -/
  create : Run State := do
    Run.call (.create path capacity) (tools.create path capacity)
    let node ← during (.inspectingNewContainer path) (Act.look fun t cwd => t.stat cwd path).toRun
    let length := lengthOf node
    if length = capacity then return .created length else fail (.containerSized path length capacity)

end Container

end BootDisk
