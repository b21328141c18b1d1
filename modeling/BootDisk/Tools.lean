import BootDisk.Config.Basic
import BootDisk.Emulator
import BootDisk.Target

/-!
# Required tools

The programs of the host that a task needs, each with a hint where to get it. Stripping is only needed where the host's tools can work
on the target's binaries.
-/

namespace BootDisk

/-- A program that has to be found, and where to get it. -/
abbrev Tool := String × String

namespace Config

/-- What building a program needs. -/
def stageTools (c : Config) : List Tool :=
  (c.tools.cargo, "rustup") :: if Target.matchesHost c.target.triple then [(c.tools.strip, "binutils")] else []

/-- What building the boot image needs. -/
def imageTools (c : Config) : List Tool :=
  [(c.tools.cargo, "rustup"), ("cargo-bootimage", "cargo install bootimage")]

/-- What booting the image needs. -/
def qemuTools (c : Config) : List Tool :=
  [(Emulator.programFor (Target.arch c.target.triple), "qemu")]

end Config

end BootDisk
