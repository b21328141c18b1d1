import BootDisk.Project
import BootDisk.Staging.Discovery
import BootDisk.Staging.Install
import BootDisk.Staging.Report
import BootDisk.Toolchain.Basic

/-!
# Staging

The user programs are built and installed one after the other, in the order of their names. The first failure ends the run, so that
what comes after it is left alone. The binaries are stripped together, after the last one is installed, and only where the host can.
-/

namespace BootDisk

namespace Staging

/-- Builds and installs one program. -/
def stageProgram (tools : Toolchain) (profile : Profile) (installDir : Path) (p : Program) : Run Installed := do
  let path := installDir.join ⟨p.name⟩
  Install.placeholder path
  Act.print s!"[stage] building {p.name} ({profile.name})"
  let binary ← during (.staging p.name) (Run.call (.compile p.name profile) (tools.compile p.name profile))
  Install.copyIn binary path
  return ⟨p.name, path⟩

/-- Strips what was installed, if the host can, and tells whether it did. -/
def strip (tools : Toolchain) (installed : List Installed) : Run Bool := do
  if tools.matchesHost then
    let paths := installed.map Installed.path
    Act.print s!"[stage] stripping {paths.length} binaries"
    Run.call (.strip paths) (tools.strip paths)
    return true
  else
    Act.warn "[stage] host architecture differs from target; leaving binaries unstripped"
    return false

/-- Builds and installs every program under `sourceDir`. Where there is none, nothing is done. -/
def rebuild (tools : Toolchain) (profile : Profile) (sourceDir installDir : Path) : Run StageReport := do
  let programs ← (Program.discover sourceDir).toRun
  if programs = [] then
    Act.print s!"[stage] no binaries under {sourceDir.text}"
    return ⟨profile, [], false⟩
  else
    during (.creatingInstallDir installDir) (Act.files fun cwd => FileCall.makeDirectories cwd installDir).toRun
    let installed ← programs.mapM (stageProgram tools profile installDir)
    let stripped ← strip tools installed
    Act.print s!"[stage] installed {installed.length} binaries into {installDir.text}"
    return ⟨profile, installed, stripped⟩

end Staging

/-- Stages the programs of a project and puts on record what was installed. -/
def Project.stage (p : Project) (tools : Toolchain) : Run StageReport := do
  let u := p.config.userspace
  let report ← Staging.rebuild tools p.profile u.sourceDir u.installDir
  if report.installed ≠ [] then
    let path ← (Manifest.write p.stateDir report).toRun
    Act.print s!"[stage] manifest: {path.text}"
  return report

end BootDisk
