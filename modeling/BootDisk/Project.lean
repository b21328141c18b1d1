import BootDisk.Config.Basic
import BootDisk.Profile
import BootDisk.Target

/-!
# A project in one run

Where a project lives, its configuration, and the profile chosen for the run; and the places that follow from them.
-/

namespace BootDisk

/-- Everything one run knows about its project. -/
structure Project where
  root : Path
  config : Config
  profile : Profile
  verbose : Bool := false
  deriving DecidableEq, Repr, Inhabited

namespace Project

/-- The directory of the builder's own records, which are no part of what is installed. -/
def stateDir (p : Project) : Path :=
  p.config.target.targetDir.join ⟨"kernel-image-builder"⟩

/-- The directory that builds with a profile end up in. -/
def outputDir (p : Project) (profile : Profile) : Path :=
  (p.config.target.targetDir.join ⟨Target.name p.config.target.triple⟩).join ⟨profile.name⟩

/-- Where the build of a program ends up. -/
def artifactPath (p : Project) (name : String) (profile : Profile) : Path :=
  (p.outputDir profile).join ⟨name⟩

/-- Where the boot image ends up. -/
def blobPath (p : Project) (profile : Profile) : Path :=
  (p.outputDir profile).join ⟨s!"bootimage-{p.config.kernel.bin}.bin"⟩

end Project

end BootDisk
