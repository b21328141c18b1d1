import BootDisk.CommandLine
import BootDisk.Host

/-!
# The program

The command line program. The tree below the working directory is taken into the library's file tree, the run is made there, and what it
has changed is put back on the disk; then the outputs are written and the exit code is returned. Commands are started on the library's
own host, so the tools of a project are scripts below its working directory.
-/

namespace BootDisk

namespace Disk

/-- The permission bits that a file is taken to have: a script can be run by everyone. -/
def modeOf (bytes : ByteArray) : Nat :=
  if bytes.data[0]? = some 0x23 ∧ bytes.data[1]? = some 0x21 then 0o755 else newFileMode

/-- The tree that an entry of a directory is the top of. Links and devices are left out. -/
partial def read (parent : Place) (entry : IO.FS.DirEntry) : IO (List (Place × Node)) := do
  let place := entry.fileName :: parent
  let data ← entry.path.symlinkMetadata
  match data.type with
  | .file =>
    let bytes ← IO.FS.readBinFile entry.path
    return [(place, .file ⟨.ofList bytes.toList, modeOf bytes, data.modified.sec.toNat⟩)]
  | .dir =>
    let below ← (← entry.path.readDir).toList.mapM (read place)
    return (place, .directory) :: below.flatten
  | _ => return []

/-- The bytes of a content. -/
def bytesOf (c : Content) : ByteArray :=
  ⟨c.stored.toArray ++ Array.replicate c.hole 0⟩

/-- The rights that three permission bits stand for. -/
def rights (bits : Nat) : IO.AccessRight :=
  ⟨bits / 4 % 2 = 1, bits / 2 % 2 = 1, bits % 2 = 1⟩

/-- Puts a node on the disk. -/
def write (place : Place) (n : Node) : IO Unit := do
  let target := (Place.path place).text
  match n with
  | .directory => IO.FS.createDirAll target
  | .file f =>
    IO.FS.createDirAll (Place.path place.tail).text
    IO.FS.writeBinFile target (bytesOf f.content)
    IO.setAccessRights target ⟨rights (f.mode / 64), rights (f.mode / 8), rights f.mode⟩
  | _ => pure ()

/-- Puts on the disk what is not as it was. -/
def update (before after : Tree) : IO Unit := do
  for (place, n) in after.entries do
    if before.node? place ≠ some n then write place n
  for (place, n) in before.entries do
    if n.isFile ∧ (after.node? place).isNone then IO.FS.removeFile (Place.path place).text

/-- The place that a path from the root names. -/
def placeOf (path : String) : Place :=
  ((Text.fields '/' path.toList).filter (· ≠ [])).reverse.map String.ofList

/-- The places above a place, itself included. -/
def above : Place → List Place
  | [] => []
  | n :: p => (n :: p) :: above p

/-- The machine that a run in the working directory starts on. -/
def machine : IO Machine := do
  let dir ← IO.currentDir
  let cwd := placeOf dir.toString
  let entries := (← (← dir.readDir).toList.mapM (read cwd)).flatten
  let top := (above cwd).foldl (fun t p => t.put p .directory) Host.tree
  let times := entries.map fun e =>
    match e.2 with
    | .file f => f.modified
    | _ => 0
  return {
    tree := ⟨entries ++ top.entries⟩
    cwd := cwd
    searchPath := (← IO.getEnv "PATH").getD ""
    home := ⟨(← IO.getEnv "HOME").getD ""⟩
    clock := times.foldl max 0 + 1 }

end Disk

/-- Makes the run that the arguments ask for and returns its exit code. -/
def runOnDisk (args : List String) : IO UInt32 := do
  let m ← Disk.machine
  let (code, s) := exitCode Host.programs args { machine := m }
  Disk.update m.tree s.machine.tree
  (← IO.getStdout).write s.machine.out
  (← IO.getStderr).write s.machine.err
  return UInt32.ofNat code

end BootDisk

/-- The program's entry. -/
def main (args : List String) : IO UInt32 :=
  BootDisk.runOnDisk args
