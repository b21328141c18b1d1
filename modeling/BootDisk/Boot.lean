import BootDisk.Emulator
import BootDisk.Machine.Run
import BootDisk.Project

/-!
# Booting the disk image

The emulator is started on the image of a project and waited for. Hardware help is asked for where the machine offers it and the guest
is of the host's architecture.
-/

namespace BootDisk.Project

/-- The guest that boots the image of a project. -/
def guest (p : Project) (kvm headless : Bool) (serialLog : Option Path) : Emulator where
  arch := Target.arch p.config.target.triple
  memoryMb := p.config.qemu.memoryMb
  disk := some p.config.image.path
  kvm := kvm
  serialOnly := headless
  serial := serialLog.elim .stdio .file
  extraArgs := p.config.qemu.extraArgs

/-- Whether the machine offers hardware help. -/
def kvmOffered : Act Bool :=
  Act.holds fun t cwd => (t.stat cwd ⟨"/dev/kvm"⟩).isOk

/-- The command that boots the image; there has to be one. -/
def bootCommand (p : Project) (headless : Bool) (serialLog : Option Path) : Act Command := do
  let image := p.config.image.path
  if ← Act.holds fun t cwd => t.isFile cwd image then
    let kvm := (← kvmOffered) && Target.matchesHost p.config.target.triple
    return (p.guest kvm headless serialLog).command
  else fail (.imageMissing image)

/-- Boots the image and waits for the emulator to end. -/
def boot (programs : Programs) (p : Project) (headless : Bool) (serialLog : Option Path) : Act Unit := do
  let c ← p.bootCommand headless serialLog
  Act.print s!"[qemu] booting {p.config.image.path.text}"
  match serialLog with
  | some log => Act.print s!"[qemu] serial output -> {log.text}"
  | none => pure ()
  let _ ← ({ c with echo := p.verbose, note := some "qemu exited with an error" }).runShown programs

end BootDisk.Project
