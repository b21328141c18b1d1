import BootDisk.Json.Pretty
import BootDisk.Json.Reader
import BootDisk.Path

/-!
# The manifest

The record of what the last successful staging installed: the profile, the time, whether the binaries were stripped, and for each of
them its name, its place, its size and its digest. It is kept as indented JSON and read back by the same fields.
-/

namespace BootDisk

/-- One installed binary. -/
structure ManifestEntry where
  name : String
  path : Path
  size : UInt64
  sha256 : String
  deriving DecidableEq, Repr, Inhabited

/-- What a staging installed. -/
structure Manifest where
  profile : String
  createdAt : String
  stripped : Bool
  entries : List ManifestEntry
  deriving DecidableEq, Repr, Inhabited

/-- An entry of which not every field may have been read. -/
structure ManifestEntry.Draft where
  name : Option String := none
  path : Option Path := none
  size : Option UInt64 := none
  sha256 : Option String := none

/-- A manifest of which not every field may have been read. -/
structure Manifest.Draft where
  profile : Option String := none
  createdAt : Option String := none
  stripped : Option Bool := none
  entries : Option (List ManifestEntry) := none

open Json (Member)

/-- The fields of an entry. -/
def ManifestEntry.shape : Json.Shape ManifestEntry.Draft ManifestEntry where
  record := "ManifestEntry"
  members :=
    [.of "name" (Json.readString .string) Draft.name fun v d => { d with name := some v },
     .of "path" (fun cs => (Json.readString .path cs).map fun (s, rest) => (Path.mk s, rest)) Draft.path fun v d =>
       { d with path := some v },
     .of "size" Json.readWord Draft.size fun v d => { d with size := some v },
     .of "sha256" (Json.readString .string) Draft.sha256 fun v d => { d with sha256 := some v }]
  blank := {}
  finish := fun d => do return ⟨← d.name, ← d.path, ← d.size, ← d.sha256⟩

/-- The fields of a manifest. -/
def Manifest.shape : Json.Shape Manifest.Draft Manifest where
  record := "StageManifest"
  members :=
    [.of "mode" (Json.readString .string) Draft.profile fun v d => { d with profile := some v },
     .of "created_at_utc" (Json.readString .string) Draft.createdAt fun v d => { d with createdAt := some v },
     .of "stripped" Json.readBoolean Draft.stripped fun v d => { d with stripped := some v },
     .of "artifacts" (Json.readList ManifestEntry.shape.read) Draft.entries fun v d => { d with entries := some v }]
  blank := {}
  finish := fun d => do return ⟨← d.profile, ← d.createdAt, ← d.stripped, ← d.entries⟩

namespace Manifest

/-- The name of the file a manifest is kept in. -/
def fileName : String := "stage-manifest.json"

/-- The manifest that a text holds. -/
def ofText (text : String) : Except Json.Error Manifest :=
  shape.readAll text

/-- An entry as it is written inside the list of entries. -/
def entryText (e : ManifestEntry) : List Char :=
  Json.objectText 2
    [("name", Json.stringText e.name), ("path", Json.stringText e.path.text), ("size", Json.wordText e.size.toNat),
     ("sha256", Json.stringText e.sha256)]

/-- A manifest as it is written. -/
def text (m : Manifest) : String :=
  String.ofList <| Json.objectText 0
    [("mode", Json.stringText m.profile), ("created_at_utc", Json.stringText m.createdAt),
     ("stripped", Json.booleanText m.stripped), ("artifacts", Json.arrayText 1 (m.entries.map entryText))]

end Manifest

end BootDisk
