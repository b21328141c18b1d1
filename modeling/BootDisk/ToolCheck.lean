import BootDisk.Machine.Basic
import BootDisk.Tools

/-!
# Looking for tools

Whether the programs that a task needs are on the machine, before any of the work is begun. A name with more than one step is a path of
its own; any other name is looked for in the directories of the search path.
-/

namespace BootDisk

namespace Machine

/-- A directory of the search path, with a leading tilde standing for the home directory. -/
def expandHome (home dir : Path) : Path :=
  match dir.components with
  | .name ['~'] :: rest => rest.foldl (fun p c => p.join ⟨String.ofList (Path.componentText c)⟩) home
  | _ => dir

/-- The directories that programs are looked for in. -/
def searchDirs (m : Machine) : List Path :=
  (Text.fields ':' m.searchPath.toList).map fun cs => expandHome m.home ⟨String.ofList cs⟩

/-- Where a program of a name could be. -/
def candidates (m : Machine) (name : String) : List Path :=
  if 1 < (Path.mk name).components.length then [⟨name⟩] else m.searchDirs.map fun d => d.join ⟨name⟩

/-- Whether there is a file at a path that someone may run. -/
def canRun (m : Machine) (p : Path) : Bool :=
  match m.tree.stat m.cwd p with
  | .ok (.file f) => Nat.land f.mode 0o111 != 0
  | _ => false

/-- Whether a program of a name is there. -/
def hasTool (m : Machine) (name : String) : Bool :=
  (m.candidates name).any m.canRun

end Machine

/-- Fails with the list of all tools that are not there. -/
def checkTools (tools : List Tool) : Act Unit := fun m =>
  match tools.filter fun t => !m.hasTool t.1 with
  | [] => .ok () m
  | missing => .error { cause := .toolsMissing missing } m

/-- The order of tools: by name, and for one name by hint. -/
def Tool.inOrder (a b : Tool) : Bool :=
  if a.1 = b.1 then decide (a.2 ≤ b.2) else decide (a.1 ≤ b.1)

/-- A list without an element that equals its neighbour before it. -/
def withoutRepeats {α : Type} [DecidableEq α] : List α → List α
  | a :: b :: rest => if a = b then withoutRepeats (b :: rest) else a :: withoutRepeats (b :: rest)
  | l => l

/-- Tools in order, each of them once. -/
def Tool.sorted (tools : List Tool) : List Tool :=
  withoutRepeats (tools.mergeSort Tool.inOrder)

end BootDisk
