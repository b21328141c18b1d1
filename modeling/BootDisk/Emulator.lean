import BootDisk.Command

/-!
# The emulator's command line

What is told to the emulator: the memory, the disk as a raw drive, where the serial line goes, and whatever the project adds.
-/

namespace BootDisk

/-- Where the guest's serial line goes. -/
inductive SerialLine where
  | stdio
  | file (path : Path)
  deriving DecidableEq, Repr, Inhabited

/-- A guest to be booted. -/
structure Emulator where
  arch : String
  memoryMb : UInt32
  disk : Option Path := none
  kvm : Bool := false
  serialOnly : Bool := false
  serial : SerialLine := .stdio
  extraArgs : List String := []
  deriving DecidableEq, Repr, Inhabited

namespace Emulator

/-- The emulator for an architecture. -/
def programFor (arch : String) : String :=
  s!"qemu-system-{arch}"

/-- The value of the option that attaches a raw disk. -/
def driveValue (disk : Path) : String :=
  s!"format=raw,file={disk.text}"

/-- The value of the option that says where the serial line goes. -/
def serialValue : SerialLine → String
  | .stdio => "stdio"
  | .file p => s!"file:{p.text}"

/-- The emulator's arguments. -/
def args (e : Emulator) : List String :=
  (if e.kvm then ["-enable-kvm", "-cpu", "host"] else []) ++
    ["-m", s!"{e.memoryMb.toNat}M"] ++
    (match e.disk with
      | some disk => ["-drive", driveValue disk]
      | none => []) ++
    ["-serial", serialValue e.serial] ++
    (if e.serialOnly then ["-display", "none"] else []) ++
    e.extraArgs

/-- The command that boots the guest. -/
def command (e : Emulator) : Command where
  program := programFor e.arch
  args := e.args

end Emulator

end BootDisk
