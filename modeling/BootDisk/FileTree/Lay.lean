import BootDisk.FileTree.Calls

/-!
# Laying out a tree

Putting files, directories and links where a description says, with the directories on the way made as needed.
-/

namespace BootDisk

/-- What is to stand at a path. -/
inductive Furnishing where
  | file (content : Content) (mode : Nat)
  | directory
  | link (target : Path)
  deriving DecidableEq, Repr, Inhabited

namespace FileCall

/-- Makes whatever directories are missing above a path. -/
def makeParents (cwd : Place) (p : Path) : FileCall Unit :=
  match p.parent? with
  | some q => makeDirectories cwd q
  | none => pure ()

/-- Makes a link where nothing stands. -/
def makeLink (cwd : Place) (p target : Path) : FileCall Unit := fun t =>
  match t.arrive cwd p .never with
  | .error e => .error e t
  | .ok (.found _ _ _) => .error (.os .alreadyExists) t
  | .ok (.vacant _ _ true) => .error (.os .noEntry) t
  | .ok (.vacant parent name false) => .ok () (t.put (name :: parent) (.link target))

/-- Puts what is wanted at a path: a file over the bytes and bits it had, a link over any file or link that was there. -/
def lay (cwd : Place) (p : Path) (what : Furnishing) : FileCall Unit := do
  match what with
  | .directory => makeDirectories cwd p
  | .file content mode =>
    makeParents cwd p
    writeAll cwd p content
    setMode cwd p mode
  | .link target =>
    makeParents cwd p
    match (← get).entry cwd p .never with
    | .ok (_, .file _) | .ok (_, .link _) => removeFile cwd p
    | _ => pure ()
    makeLink cwd p target

/-- Takes away a file, a link, or a directory with all that is in it. -/
def removeAny (cwd : Place) (p : Path) : FileCall Unit := fun t =>
  match t.entry cwd p .never with
  | .error e => .error e t
  | .ok (place, .directory) => .ok () (t.prune place)
  | .ok (place, _) => .ok () (t.erase place)

end FileCall

end BootDisk
