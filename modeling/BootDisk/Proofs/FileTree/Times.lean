import BootDisk.FileTree.Calls
import BootDisk.Proofs.FileTree.Walk

/-!
# File times

A tree without the times of its files (`Tree.timeless`) is all that walks, looks and reads see: where a path leads, what stands there but
for its time, and which bytes are read do not depend on when files were last marked as changed.
-/

namespace BootDisk

/-- A node without its time. -/
def Node.timeless : Node → Node
  | .file f => .file { f with modified := 0 }
  | n => n

/-- An arrival without the time of what is found. -/
def Arrival.timeless : Arrival → Arrival
  | .found place node slash => .found place node.timeless slash
  | .vacant parent name slash => .vacant parent name slash

namespace Node

@[simp] theorem timeless_file (f : File) : (Node.file f).timeless = .file { f with modified := 0 } := rfl

@[simp] theorem timeless_directory : Node.directory.timeless = .directory := rfl

@[simp] theorem timeless_link (target : Path) : (Node.link target).timeless = .link target := rfl

@[simp] theorem timeless_device : Node.device.timeless = .device := rfl

@[simp] theorem isFile_timeless (n : Node) : n.timeless.isFile = n.isFile := by cases n <;> rfl

@[simp] theorem isDirectory_timeless (n : Node) : n.timeless.isDirectory = n.isDirectory := by cases n <;> rfl

@[simp] theorem contentOf_timeless (n : Node) : Tree.contentOf n.timeless = Tree.contentOf n := by cases n <;> rfl

end Node

namespace Tree

/-- A tree without the times of its files. -/
def timeless (t : Tree) : Tree :=
  ⟨t.entries.map fun e => (e.1, e.2.timeless)⟩

/-- Trees that differ in nothing but the times of their files. -/
def SameButTimes (t t' : Tree) : Prop :=
  t.timeless = t'.timeless

@[simp] theorem node?_timeless (t : Tree) (p : Place) : t.timeless.node? p = (t.node? p).map Node.timeless := by
  unfold node?
  split
  · rfl
  · unfold timeless
    induction t.entries with
    | nil => rfl
    | cons e es ih =>
      rw [List.map_cons, List.lookup_cons, List.lookup_cons, ih]
      split <;> rfl

@[simp] theorem timeless_put (t : Tree) (p : Place) (n : Node) : (t.put p n).timeless = t.timeless.put p n.timeless := by
  simp [timeless, put, List.filter_map, Function.comp_def]

/-! ## Walks -/

/-- One step to a name, given where the walk goes on through a link and in a directory. -/
theorem walkSteps_name_timeless (t : Tree) (last : LastLink) {links : Nat} {here : Place} {rest : List Step} {name : String}
    (hfollow : ∀ target, t.timeless.follow last links here target rest = (t.follow last links here target rest).map Arrival.timeless)
    (hon : t.timeless.walkSteps last links (name :: here) rest = (t.walkSteps last links (name :: here) rest).map Arrival.timeless) :
    t.timeless.walkSteps last links here (.name name :: rest) =
      (t.walkSteps last links here (.name name :: rest)).map Arrival.timeless := by
  rw [walkSteps_name, walkSteps_name, node?_timeless]
  split
  · rfl
  cases t.node? (name :: here) with
  | none => cases Step.atEnd rest <;> rfl
  | some n =>
    cases n with
    | file f => cases Step.atEnd rest <;> rfl
    | device => cases Step.atEnd rest <;> rfl
    | directory =>
      cases Step.atEnd rest with
      | none => exact hon
      | some slash => rfl
    | link target =>
      cases Step.atEnd rest with
      | none => exact hfollow target
      | some slash =>
        simp only [Option.map_some, Node.timeless_link]
        split
        · exact hfollow target
        · rfl

/-- Where a walk ends does not depend on file times. -/
theorem walkSteps_timeless (t : Tree) (last : LastLink) (links : Nat) (here : Place) (steps : List Step) :
    t.timeless.walkSteps last links here steps = (t.walkSteps last links here steps).map Arrival.timeless := by
  induction links generalizing here steps with
  | zero =>
    induction steps generalizing here with
    | nil => rfl
    | cons step rest ih =>
      cases step with
      | here => exact ih here
      | slash => exact ih here
      | up => exact ih here.tail
      | name n => exact walkSteps_name_timeless t last (fun _ => rfl) (ih _)
  | succ links ihlinks =>
    induction steps generalizing here with
    | nil => rfl
    | cons step rest ih =>
      cases step with
      | here => exact ih here
      | slash => exact ih here
      | up => exact ih here.tail
      | name n => exact walkSteps_name_timeless t last (fun target => ihlinks _ _) (ih _)

theorem arrive_timeless (t : Tree) (cwd : Place) (p : Path) (last : LastLink) :
    t.timeless.arrive cwd p last = (t.arrive cwd p last).map Arrival.timeless := by
  unfold arrive walk
  rw [walkSteps_timeless]
  split
  · rfl
  · split
    · rfl
    · split
      · rfl
      · cases t.walkSteps last maxLinks (startOf cwd p) p.steps <;> rfl

theorem entry_timeless (t : Tree) (cwd : Place) (p : Path) (last : LastLink) :
    t.timeless.entry cwd p last = (t.entry cwd p last).map (Prod.map id Node.timeless) := by
  unfold entry
  rw [arrive_timeless]
  cases t.arrive cwd p last with
  | error e => rfl
  | ok a =>
    cases a with
    | vacant parent name slash => rfl
    | found place node slash =>
      simp only [Except.map, Arrival.timeless, Node.isDirectory_timeless]
      split <;> rfl

theorem stat_timeless (t : Tree) (cwd : Place) (p : Path) : t.timeless.stat cwd p = (t.stat cwd p).map Node.timeless := by
  unfold stat
  rw [entry_timeless]
  cases t.entry cwd p .through <;> rfl

theorem isFile_timeless (t : Tree) (cwd : Place) (p : Path) : t.timeless.isFile cwd p = t.isFile cwd p := by
  unfold isFile
  rw [stat_timeless]
  cases t.stat cwd p with
  | error e => rfl
  | ok n => exact n.isFile_timeless

theorem readAll_timeless (t : Tree) (cwd : Place) (p : Path) : t.timeless.readAll cwd p = t.readAll cwd p := by
  unfold readAll
  rw [stat_timeless]
  cases t.stat cwd p with
  | error e => rfl
  | ok n => exact n.contentOf_timeless

theorem openWrite_timeless (t : Tree) (cwd : Place) (p : Path) :
    t.timeless.openWrite cwd p = (t.openWrite cwd p).map (Prod.map id Node.timeless) := by
  unfold openWrite
  rw [entry_timeless]
  cases t.entry cwd p .through with
  | error e => rfl
  | ok e =>
    simp only [Except.map, Prod.map_fst, Prod.map_snd, Node.isDirectory_timeless]
    split <;> rfl

/-- What is stored is stored whatever the times are. -/
theorem timeless_store (t : Tree) (place : Place) (n : Node) (c : Content) :
    (t.store place n c).timeless = t.timeless.store place n.timeless c := by
  cases n with
  | file f => exact timeless_put _ _ _
  | _ => rfl

end Tree

end BootDisk
