import BootDisk.Machine.Basic

/-!
# Finding the programs

The user programs under a directory: every source file `<name>.rs`, and every directory with a `main.rs` in it. Names that start with a
dot are passed over. The programs come in the order of their names, whatever order the directory lists its entries in, and two of one
name are a fault.
-/

namespace BootDisk

/-- A user program: its name and where its source is. -/
structure Program where
  name : String
  source : Path
  deriving DecidableEq, Repr, Inhabited

namespace Program

/-- The program that an entry of the source directory stands for, if any. An entry that leads to a directory is one if there is a main
source in it; any other entry is one by its name alone, also a link that leads nowhere. -/
def ofEntry (t : Tree) (cwd : Place) (dir : Path) (name : String) : Option Program :=
  let path := dir.join ⟨name⟩
  if name.toList.head? = some '.' then none
  else if t.isDirectory cwd path then
    let main := path.join ⟨"main.rs"⟩
    if t.isFile cwd main then some ⟨name, main⟩ else none
  else if (Path.mk name).extension? = some "rs" then (Path.mk name).fileStem?.map fun stem => ⟨stem, path⟩
  else none

/-- The order of programs: by name, and for one name by the text of the source's path. -/
def inOrder (a b : Program) : Bool :=
  if a.name = b.name then decide (a.source.text ≤ b.source.text) else decide (a.name ≤ b.name)

/-- The first two neighbours of one name. -/
def firstRepeated : List Program → Option (Program × Program)
  | a :: b :: rest => if a.name = b.name then some (a, b) else firstRepeated (b :: rest)
  | _ => none

/-- The names of the entries of the directory that a path resolves to. -/
def entryNames (t : Tree) (cwd : Place) (dir : Path) : Except IoError (List String) :=
  match t.entry cwd dir .through with
  | .ok (place, .directory) => .ok (t.names place)
  | .ok _ => .error (.os .notDirectory)
  | .error e => .error e

/-- The programs among the entries of a directory, in order. -/
def ofEntries (t : Tree) (cwd : Place) (dir : Path) (names : List String) : Except Cause (List Program) :=
  let found := (names.filterMap (ofEntry t cwd dir)).mergeSort inOrder
  match firstRepeated found with
  | some (a, b) => .error (.repeatedProgram a.name a.source b.source)
  | none => .ok found

/-- Finds the programs under a directory; where there is no directory there are none. -/
def discover (dir : Path) : Act (List Program) := fun m =>
  if m.tree.isDirectory m.cwd dir then
    match entryNames m.tree m.cwd dir with
    | .error e => .error { activities := [.readingSources dir], cause := .io e } m
    | .ok names =>
      match ofEntries m.tree m.cwd dir names with
      | .ok programs => .ok programs m
      | .error c => .error { cause := c } m
  else .ok [] m

end Program

end BootDisk
