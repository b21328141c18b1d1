import BootDisk.FileTree.Walk

/-!
# Calls on the file tree

What a program can do with a tree through paths: look, read, create, write, copy, remove. A call that fails leaves the tree as it
found it, with one exception, the making of a whole row of directories, which keeps those it has made.

A path with a NUL in it is refused before it is walked. New files get the permission bits `newFileMode`.
-/

namespace BootDisk

/-- A call on the tree: it may change the tree, and fail. -/
abbrev FileCall := EStateM IoError Tree

/-- The permission bits of a file that a program creates without asking for any. -/
def newFileMode : Nat := 0o644

/-- The permission bits that a newly created file can be given; the mask of the process takes away the others. -/
def creationMask : Nat := 0o755

/-- The greatest length a file can be given. -/
def maxFileLength : Nat := 0x7fffffffffffffff

namespace Path

/-- Whether a path holds the character that no call accepts. -/
def hasNul (p : Path) : Bool :=
  p.text.toList.contains '\x00'

end Path

namespace Tree

/-- Where a path leads, as a file call sees it. -/
def arrive (t : Tree) (cwd : Place) (p : Path) (last : LastLink) : Except IoError Arrival :=
  if p.hasNul then .error .nulInFileName else (t.walk cwd p last).mapError .os

/-- What stands where a path leads. A slash at its end asks for a directory. -/
def entry (t : Tree) (cwd : Place) (p : Path) (last : LastLink) : Except IoError (Place × Node) :=
  match t.arrive cwd p last with
  | .error e => .error e
  | .ok (.vacant _ _ _) => .error (.os .noEntry)
  | .ok (.found place node slash) =>
    if slash ∧ ¬ node.isDirectory then .error (.os .notDirectory) else .ok (place, node)

/-- The node that a path resolves to. -/
def stat (t : Tree) (cwd : Place) (p : Path) : Except IoError Node :=
  (t.entry cwd p .through).map Prod.snd

/-- Whether a path resolves to a regular file. -/
def isFile (t : Tree) (cwd : Place) (p : Path) : Bool :=
  match t.stat cwd p with
  | .ok n => n.isFile
  | .error _ => false

/-- Whether a path resolves to a directory. -/
def isDirectory (t : Tree) (cwd : Place) (p : Path) : Bool :=
  match t.stat cwd p with
  | .ok n => n.isDirectory
  | .error _ => false

/-- Whether a path names a link. -/
def isLink (t : Tree) (cwd : Place) (p : Path) : Bool :=
  match t.entry cwd p .itself with
  | .ok (_, n) => n.isLink
  | .error _ => false

/-- What reading an open node gives; a directory opens but cannot be read. -/
def contentOf : Node → Except IoError Content
  | .file f => .ok f.content
  | .device => .ok .empty
  | .directory => .error (.os .isDirectory)
  | .link _ => .error (.os .tooManyLinks)

/-- All bytes of what a path resolves to. -/
def readAll (t : Tree) (cwd : Place) (p : Path) : Except IoError Content :=
  (t.stat cwd p).bind contentOf

/-- The text of what a path resolves to. -/
def readText (t : Tree) (cwd : Place) (p : Path) : Except IoError String :=
  match t.readAll cwd p with
  | .error e => .error e
  | .ok c =>
    match Text.decode? c.toList with
    | some s => .ok s
    | none => .error .notUtf8

/-- The node an existing path is opened as for writing. -/
def openWrite (t : Tree) (cwd : Place) (p : Path) : Except IoError (Place × Node) :=
  match t.entry cwd p .through with
  | .error e => .error e
  | .ok (place, n) => if n.isDirectory then .error (.os .isDirectory) else .ok (place, n)

/-- Gives the open node these bytes; the device swallows them. -/
def store (t : Tree) (place : Place) (n : Node) (c : Content) : Tree :=
  match n with
  | .file f => t.put place (.file { f with content := c })
  | _ => t

end Tree

namespace FileCall

/-- Opens a file for writing; where nothing stands yet, also at the far end of a link, an empty file is made. -/
def openCreate (cwd : Place) (p : Path) (mode : Nat) : FileCall (Place × Node) := fun t =>
  match t.arrive cwd p .toCreate with
  | .error e => .error e t
  | .ok (.found place n slash) => if slash || n.isDirectory then .error (.os .isDirectory) t else .ok (place, n) t
  | .ok (.vacant parent name slash) =>
    if slash then .error (.os .isDirectory) t
    else
      let n : Node := .file ⟨.empty, mode, 0⟩
      .ok (name :: parent, n) (t.put (name :: parent) n)

/-- Makes an empty file where nothing stands, not even a link. -/
def openNew (cwd : Place) (p : Path) : FileCall (Place × Node) := fun t =>
  match t.arrive cwd p .never with
  | .error e => .error e t
  | .ok (.found _ _ slash) => .error (.os (if slash then .isDirectory else .alreadyExists)) t
  | .ok (.vacant parent name slash) =>
    if slash then .error (.os .isDirectory) t
    else
      let n : Node := .file ⟨.empty, newFileMode, 0⟩
      .ok (name :: parent, n) (t.put (name :: parent) n)

/-- Gives the open node these bytes. -/
def store (place : Place) (n : Node) (c : Content) : FileCall Unit :=
  modify fun t => t.store place n c

/-- Writes a whole file, over the bytes it had. -/
def writeAll (cwd : Place) (p : Path) (c : Content) : FileCall Unit := do
  let (place, n) ← openCreate cwd p newFileMode
  store place n c

/-- Copies a regular file with its permission bits. The destination is emptied before the source is read, so a file copied onto itself
ends up empty. -/
def copy (cwd : Place) (source target : Path) : FileCall Unit := fun t =>
  match t.entry cwd source .through with
  | .error e => .error e t
  | .ok (origin, .file f) =>
    match openCreate cwd target (Nat.land f.mode creationMask) t with
    | .error e t => .error e t
    | .ok (place, .file g) t =>
      let c := if place = origin then Content.empty else f.content
      .ok () (t.put place (.file { g with content := c, mode := f.mode }))
    | .ok _ t => .ok () t
  | .ok _ => .error .sourceNotRegular t

/-- Takes away a file or a link, not what the link leads to. -/
def removeFile (cwd : Place) (p : Path) : FileCall Unit := fun t =>
  match t.entry cwd p .never with
  | .error e => .error e t
  | .ok (_, .directory) => .error (.os .isDirectory) t
  | .ok (place, _) => .ok () (t.erase place)

/-- Sets the permission bits of what a path resolves to. -/
def setMode (cwd : Place) (p : Path) (mode : Nat) : FileCall Unit := fun t =>
  match t.entry cwd p .through with
  | .error e => .error e t
  | .ok (place, .file f) => .ok () (t.put place (.file { f with mode := mode }))
  | .ok _ => .ok () t

/-- Makes one directory in an existing one. -/
def makeDirectory (cwd : Place) (p : Path) : FileCall Unit := fun t =>
  match t.arrive cwd p .never with
  | .error e => .error e t
  | .ok (.found _ _ _) => .error (.os .alreadyExists) t
  | .ok (.vacant parent name _) => .ok () (t.put (name :: parent) .directory)

/-- Makes a directory, taking one that is there already for made. -/
def ensureDirectory (cwd : Place) (p : Path) : FileCall Unit := fun t =>
  match makeDirectory cwd p t with
  | .ok () t => .ok () t
  | .error e t => if t.isDirectory cwd p then .ok () t else .error e t

/-- Makes a directory and the missing ones above it, at most so many levels up. -/
def makeDirectoriesUp (cwd : Place) : Nat → Path → FileCall Unit
  | 0, _ => throw .treeNotCreated
  | levels + 1, p => fun t =>
    if p.text = "" then .ok () t
    else
      match makeDirectory cwd p t with
      | .ok () t => .ok () t
      | .error (.os .noEntry) t =>
        match p.parent? with
        | none => .error .treeNotCreated t
        | some q =>
          match makeDirectoriesUp cwd levels q t with
          | .error e t => .error e t
          | .ok () t => ensureDirectory cwd p t
      | .error e t => if t.isDirectory cwd p then .ok () t else .error e t

/-- Makes a directory and whatever is missing above it. -/
def makeDirectories (cwd : Place) (p : Path) : FileCall Unit :=
  makeDirectoriesUp cwd (p.components.length + 1) p

end FileCall

end BootDisk
