import BootDisk.Machine.Basic

/-!
# Installing a binary

How a binary gets to its install path. The path is taken hold of before the binary is built, then the binary is copied there and made
executable. A link that stands at an install path is removed, so that nothing is ever written to where it leads.
-/

namespace BootDisk.Install

/-- The permission bits that let everyone run a file. -/
def executeBits : Nat := 0o111

/-- Removes a link that stands at an install path. -/
def removeLink (path : Path) : Act Unit := do
  if ← Act.holds fun t cwd => t.isLink cwd path then
    during (.removingLink path) (Act.files fun cwd => FileCall.removeFile cwd path)

/-- Takes hold of an install path: what is there as a file stays, and where nothing is an empty file is made. -/
def placeholder (path : Path) : Act Unit := do
  removeLink path
  during (.creatingPlaceholder path) do
    let _ ← Act.files fun cwd => FileCall.openCreate cwd path newFileMode

/-- The permission bits of a node, as far as they are kept. -/
def modeOf : Node → Nat
  | .file f => f.mode
  | _ => 0

/-- Lets everyone run the file at a path. -/
def makeExecutable (path : Path) : Act Unit := do
  let node ← during (.readingPermissions path) (Act.look fun t cwd => t.stat cwd path)
  during (.markingExecutable path)
    (Act.files fun cwd => FileCall.setMode cwd path (Nat.lor (modeOf node) executeBits))

/-- Installs a binary: whatever was at the path is replaced. -/
def copyIn (binary path : Path) : Act Unit := do
  removeLink path
  during (.copying binary path) (Act.files fun cwd => FileCall.copy cwd binary path)
  makeExecutable path

end BootDisk.Install
