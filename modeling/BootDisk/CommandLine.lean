import BootDisk.Assembly
import BootDisk.Boot
import BootDisk.Config.Load
import BootDisk.Options
import BootDisk.Staging
import BootDisk.ToolCheck
import BootDisk.Toolchain.Cargo

/-!
# A whole run

From the arguments to the exit code: the arguments are read, the configuration of the project in the working directory is loaded, the
tools of the task are looked for, and only then the task is begun. A failure is reported and makes the exit code 1.
-/

namespace BootDisk

/-- The tools that a task needs, as they are looked for. -/
def Task.tools (t : Task) (c : Config) : List Tool :=
  match t with
  | .stage => c.stageTools
  | .image => c.imageTools
  | .qemu => c.qemuTools
  | .all => Tool.sorted (c.stageTools ++ c.imageTools)
  | .check => Tool.sorted (c.stageTools ++ c.imageTools ++ c.qemuTools)

/-- The path of a place. -/
def Place.path (p : Place) : Path :=
  ⟨"/" ++ "/".intercalate p.reverse⟩

/-- The project in the working directory, with its configuration. -/
def Settings.project (s : Settings) : Act Project := do
  let root := Place.path (← get).cwd
  let config ← Config.load root s.config
  return ⟨root, config, s.profile, s.verbose⟩

/-- Does the work of a task whose tools are there. -/
def Task.perform (programs : Programs) (t : Task) (p : Project) (s : Settings) : Run Unit := do
  let tools := p.toolchain programs
  match t with
  | .stage => let _ ← p.stage tools
  | .image => let _ ← p.assemble tools
  | .all =>
    let _ ← p.stage tools
    let _ ← p.assemble tools
  | .qemu => (p.boot programs s.headless s.serialLog).toRun
  | .check => (Act.print s!"[check] all {(t.tools p.config).length} host tools found").toRun

/-- A run with these options. -/
def Options.run (programs : Programs) (o : Options) : Run Unit := do
  let p ← o.settings.project.toRun
  (checkTools (o.task.tools p.config)).toRun
  o.task.perform programs p o.settings

/-- A run with these arguments. -/
def runArguments (programs : Programs) (args : List String) : Run Unit :=
  match Options.parse args with
  | .ok o => o.run programs
  | .error e => fail (.option e)

/-- A run with these arguments, told by its exit code; a failure is reported on the error output. -/
def exitCode (programs : Programs) (args : List String) (s : Session) : Nat × Session :=
  match runArguments programs args s with
  | .ok () s => (0, s)
  | .error f s => (1, { s with machine := { s.machine with err := s.machine.err ++ s!"Error: {f.report}\n".toUTF8 } })

end BootDisk
