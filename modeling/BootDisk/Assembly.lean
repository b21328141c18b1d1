import BootDisk.Project
import BootDisk.Toolchain.Basic

/-!
# Assembling the disk image

The container is there or is created, the kernel is built anew with its bootloader, and the boot image is written into the container.
If a tool fails nothing is written; a container that was created before stays.
-/

namespace BootDisk

/-- What one assembly has done. -/
structure Assembly where
  container : Path
  state : Container.State
  blob : Path
  written : Container.Written
  deriving DecidableEq, Repr, Inhabited

/-- Assembles the image in the container at `path`, which gets `capacity` bytes if it is not there yet. -/
def assemble (tools : Toolchain) (profile : Profile) (path : Path) (capacity : Nat) : Run Assembly := do
  Act.print s!"[image] preparing {path.text} ({profile.name} build)"
  let state ← Container.ensure tools path capacity
  Act.print s!"[image] {state.verb} disk container ({state.length} bytes)"
  during .invalidatingKernel (Run.call .invalidate tools.invalidate)
  Act.print "[image] building kernel and bootloader..."
  let blob ← Run.call (.embed profile) (tools.embed profile)
  let written ← Container.writeBlob path blob
  Act.print
    s!"[image] wrote {written.blobLength} bytes of {blob.text} at offset 0 ({written.containerLength} bytes total)"
  return ⟨path, state, blob, written⟩

/-- Assembles the image of a project. -/
def Project.assemble (p : Project) (tools : Toolchain) : Run Assembly :=
  match p.config.image.capacityBytes with
  | .ok capacity => BootDisk.assemble tools p.profile p.config.image.path capacity
  | .error e => fail (.config e)

end BootDisk
