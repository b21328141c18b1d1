import BootDisk.Digest.Hasher
import BootDisk.Machine.Basic
import BootDisk.Staging.Manifest
import BootDisk.Staging.Timestamp

/-!
# What a staging has done

The report of a staging, and how it is put on record: every installed file is read and its size and digest are taken, and the manifest
of them all replaces the one before.
-/

namespace BootDisk

/-- An installed program. -/
structure Installed where
  name : String
  path : Path
  deriving DecidableEq, Repr, Inhabited

/-- What a staging has done. -/
structure StageReport where
  profile : Profile
  installed : List Installed
  stripped : Bool
  deriving DecidableEq, Repr, Inhabited

namespace Manifest

/-- Reads a file to its end and takes its digest and its size. -/
def measure (path : Path) : Act Sha256.Hasher := do
  let node ← during (.openingArtifact path) (Act.look fun t cwd => t.stat cwd path)
  let content ← Act.look fun _ _ => Tree.contentOf node
  return Sha256.Hasher.ofPieces (Sha256.reads content.toList)

/-- The entry for an installed program. -/
def entryFor (i : Installed) : Act ManifestEntry := do
  let h ← measure i.path
  return ⟨i.name, i.path, UInt64.ofNat h.length, Sha256.hexText h.finish⟩

/-- The manifest for a report. -/
def ofReport (r : StageReport) : Act Manifest := do
  let entries ← r.installed.mapM entryFor
  return ⟨r.profile.name, timestamp (← get).clock, r.stripped, entries⟩

/-- Where the manifest is kept. -/
def pathIn (stateDir : Path) : Path :=
  stateDir.join ⟨fileName⟩

/-- Puts a report on record and tells where. -/
def write (stateDir : Path) (r : StageReport) : Act Path := do
  let m ← ofReport r
  during (.creatingStateDir stateDir) (Act.files fun cwd => FileCall.makeDirectories cwd stateDir)
  let path := pathIn stateDir
  during (.writingManifest path) (Act.files fun cwd => FileCall.writeAll cwd path (.ofList (Text.encode m.text)))
  return path

end Manifest

end BootDisk
