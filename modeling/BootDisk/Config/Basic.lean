import BootDisk.Path

/-!
# The configuration of a project

What a project can choose about its build, in six sections. Every field has a default, so a project that chooses nothing has the stock
layout: user programs in `src/bin`, installed into `dsk/bin`, and a disk image of 32 MiB in the project's root.
-/

namespace BootDisk

/-- What is built for: a target triple or the path of a target file, and where builds go. -/
structure TargetSection where
  triple : String := "x86_64-syskrnl"
  targetDir : Path := ⟨"target"⟩
  deriving DecidableEq, Repr, Inhabited

/-- The kernel: its binary, and the source whose time of change is moved to have the kernel built anew. -/
structure KernelSection where
  bin : String := "syskrnl"
  entrySource : Path := ⟨"src/lib.rs"⟩
  features : List String := []
  noDefaultFeatures : Bool := false
  deriving DecidableEq, Repr, Inhabited

/-- The user programs: where their sources are and where they are installed. Compiler arguments make the build a compiler call. -/
structure UserspaceSection where
  sourceDir : Path := ⟨"src/bin"⟩
  installDir : Path := ⟨"dsk/bin"⟩
  features : List String := []
  noDefaultFeatures : Bool := false
  rustcArgs : List String := []
  deriving DecidableEq, Repr, Inhabited

/-- The disk image. -/
structure ImageSection where
  path : Path := ⟨"disk.img"⟩
  capacityMib : UInt64 := 32
  deriving DecidableEq, Repr, Inhabited

/-- The programs that build and strip. -/
structure ToolsSection where
  cargo : String := "cargo"
  strip : String := "strip"
  deriving DecidableEq, Repr, Inhabited

/-- The emulator. -/
structure QemuSection where
  memoryMb : UInt32 := 128
  extraArgs : List String := []
  deriving DecidableEq, Repr, Inhabited

/-- The configuration of a project. -/
structure Config where
  target : TargetSection := {}
  kernel : KernelSection := {}
  userspace : UserspaceSection := {}
  image : ImageSection := {}
  tools : ToolsSection := {}
  qemu : QemuSection := {}
  deriving DecidableEq, Repr, Inhabited

/-- The bytes of one MiB. -/
def bytesPerMib : Nat := 1024 * 1024

/-- The capacity of the image in bytes, if a 64-bit number can hold it. -/
def ImageSection.capacityBytes? (image : ImageSection) : Option Nat :=
  let bytes := bytesPerMib * image.capacityMib.toNat
  if bytes < 0x10000000000000000 then some bytes else none

end BootDisk
