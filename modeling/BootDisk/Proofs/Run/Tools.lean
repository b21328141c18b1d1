import BootDisk.Proofs.Run.Calls
import BootDisk.Proofs.Run.Trace

/-!
# The tools of a run

Every program that a run starts is among the tools that were looked for first, by the same name, and so is what the builds need besides. A
run whose tools are not all there names those that are not, and has done nothing.
-/

namespace BootDisk

/-- The tasks whose tools a task needs. -/
def Task.parts : Task → List Task
  | .stage => [.stage]
  | .image => [.image]
  | .qemu => [.qemu]
  | .all => [.stage, .image]
  | .check => [.stage, .image, .qemu]

/-- The tools that a call of a project's toolchain makes use of. -/
def ToolCall.uses (c : Config) : ToolCall → List Tool
  | .compile _ _ => [(c.tools.cargo, "rustup")]
  | .strip _ => [(c.tools.strip, "binutils")]
  | .embed _ => [(c.tools.cargo, "rustup"), ("cargo-bootimage", "cargo install bootimage")]
  | .invalidate | .create _ _ => []

namespace Task

variable {t : Task} {c : Config} {tool : Tool} {m : Machine}

/-- The tools of a task are those of its parts. -/
theorem mem_tools : tool ∈ t.tools c ↔ ∃ part ∈ t.parts, tool ∈ part.tools c := by
  cases t with
  | all => simp [tools, parts, Tool.mem_sorted]
  | check => simp [tools, parts, Tool.mem_sorted]
  | _ => simp [parts]

/-- The tools of a task are there exactly when those of each of its parts are. -/
theorem endedWell_checkTools (t : Task) (c : Config) (m : Machine) :
    endedWell (checkTools (t.tools c) m) = true ↔ ∀ part ∈ t.parts, endedWell (checkTools (part.tools c) m) = true := by
  simp only [BootDisk.endedWell_checkTools]
  constructor
  · exact fun h part hpart tool htool => h tool (mem_tools.2 ⟨part, hpart, htool⟩)
  · intro h tool htool
    obtain ⟨part, hpart, htool⟩ := mem_tools.1 htool
    exact h part hpart tool htool

/-- Stripping is among the tools of a task with a staging exactly where the host can strip. -/
theorem mem_tools_strip (h : .stage ∈ t.parts) (c : Config) :
    (c.tools.strip, "binutils") ∈ t.tools c ↔ Target.matchesHost c.target.triple = true := by
  have hstage : (c.tools.strip, "binutils") ∈ c.stageTools ↔ Target.matchesHost c.target.triple = true := by
    unfold Config.stageTools
    split <;> simp_all
  have himage : (c.tools.strip, "binutils") ∉ c.imageTools := by simp [Config.imageTools]
  have hqemu : (c.tools.strip, "binutils") ∉ c.qemuTools := by simp [Config.qemuTools]
  rw [← hstage]
  cases t with
  | stage => rfl
  | all => simp [tools, Tool.mem_sorted, himage]
  | check => simp [tools, Tool.mem_sorted, himage, hqemu]
  | image => simp [parts] at h
  | qemu => simp [parts] at h

/-- The tools of a task that has several parts come strictly in order. -/
theorem strict_tools (h : t = .all ∨ t = .check) (c : Config) : (t.tools c).Pairwise fun a b => toLex a < toLex b := by
  rcases h with rfl | rfl
  · exact Tool.strict_sorted _
  · exact Tool.strict_sorted _

/-- What a task asks its toolchain for makes use of its tools only. -/
theorem uses_subset {programs : Programs} {p : Project} {call : ToolCall} (h : t.Allows (p.toolchain programs) call) :
    call.uses p.config ⊆ t.tools p.config := by
  have hstage {q : Task} (hq : .stage ∈ q.parts) (h : call.OfStage (p.toolchain programs)) : call.uses p.config ⊆ q.tools p.config := by
    cases call with
    | compile name profile =>
      exact fun tool htool => mem_tools.2 ⟨.stage, hq, List.mem_singleton.1 htool ▸ List.mem_cons_self⟩
    | strip paths => exact fun tool htool => List.mem_singleton.1 htool ▸ (mem_tools_strip hq _).2 h
    | _ => exact h.elim
  have himage {q : Task} (hq : .image ∈ q.parts) (h : call.OfImage) : call.uses p.config ⊆ q.tools p.config := by
    cases call with
    | embed profile => exact fun tool htool => mem_tools.2 ⟨.image, hq, htool⟩
    | compile name profile => exact h.elim
    | strip paths => exact h.elim
    | _ => exact List.nil_subset _
  cases t with
  | stage => exact hstage (by simp [parts]) h
  | image => exact himage (by simp [parts]) h
  | all => exact h.elim (hstage (by simp [parts])) (himage (by simp [parts]))
  | qemu => exact h.elim
  | check => exact h.elim

end Task

/-! ## The programs that are started -/

section Started

variable {programs : Programs} {p : Project} {profile : Profile} {sourceDir installDir : Path} {settings : Settings} {capacity : Nat}
variable {s : Session} {t : Task} {new : List Command} {c : Command}

/-- A staging starts the builder, and the stripper where the host can strip. -/
theorem StageChildren.program_mem (h : StageChildren programs p profile sourceDir installDir s new) (hc : c ∈ new) :
    c.program ∈ p.config.stageTools.map Prod.fst := by
  have hcompile (row : List Program) (hc : c ∈ row.map fun q => p.compileCall q.name profile) :
      c.program ∈ p.config.stageTools.map Prod.fst := by
    obtain ⟨q, -, rfl⟩ := List.mem_map.1 hc
    exact List.mem_cons_self
  cases h with
  | unread | none | notReady => cases hc
  | notHeld before => exact hcompile before hc
  | notStaged before rest q => exact hcompile (before ++ [q]) hc
  | staged row =>
    rcases List.mem_append.1 hc with hc | hc
    · exact hcompile row hc
    · split at hc
      · next hhost =>
        rw [List.mem_singleton.1 hc]
        exact List.mem_map.2 ⟨(p.config.tools.strip, "binutils"), (Task.mem_tools_strip (t := .stage) (by simp [Task.parts]) _).2 hhost, rfl⟩
      · cases hc

/-- An assembly starts the builder. -/
theorem ImageChildren.program_mem (h : ImageChildren programs p capacity s new) (hc : c ∈ new) :
    c.program ∈ p.config.imageTools.map Prod.fst := by
  cases h with
  | unprepared | untouched => cases hc
  | embedded =>
    rw [List.mem_singleton.1 hc]
    exact List.mem_cons_self

/-- A task starts its tools only. -/
theorem TaskChildren.program_mem (h : TaskChildren programs p settings capacity s t new) (hc : c ∈ new) :
    c.program ∈ (t.tools p.config).map Prod.fst := by
  have hpart (part : Task) (hpart : part ∈ t.parts) (hmem : c.program ∈ (part.tools p.config).map Prod.fst) :
      c.program ∈ (t.tools p.config).map Prod.fst := by
    obtain ⟨tool, htool, hname⟩ := List.mem_map.1 hmem
    exact List.mem_map.2 ⟨tool, Task.mem_tools.2 ⟨part, hpart, htool⟩, hname⟩
  cases h with
  | stage hstage => exact hstage.program_mem hc
  | image himage => exact himage.program_mem hc
  | both report s₁ hstage _ himage =>
    rcases List.mem_append.1 hc with hc | hc
    · exact hpart .stage (by simp [Task.parts]) (hstage.program_mem hc)
    · exact hpart .image (by simp [Task.parts]) (himage.program_mem hc)
  | stageOnly e s₁ hstage => exact hpart .stage (by simp [Task.parts]) (hstage.program_mem hc)
  | booted =>
    rw [List.mem_singleton.1 hc]
    exact List.mem_cons_self
  | noImage | check => cases hc

end Started

/-! ## Whole runs -/

/-- How the tools that are looked for and the work of a run belong together. -/
structure ToolsCover (programs : Programs) (args : List String) (o : Options) (p : Project) (s : Session) : Prop where
  /-- Every program that is started goes by the name of a tool that was looked for. -/
  started : ∃ new, (exitCode programs args s).2.machine.children = s.machine.children ++ new ∧
    ∀ c ∈ new, c.program ∈ (o.task.tools p.config).map Prod.fst
  /-- All that the toolchain is asked for makes use of tools that were looked for, the builder's own helper for images included. -/
  asked : ∃ new, (exitCode programs args s).2.calls = s.calls ++ new ∧ ∀ c ∈ new, c.uses p.config ⊆ o.task.tools p.config
  /-- The stripper is looked for exactly where the toolchain says that the host can strip. -/
  strip : o.task = .stage ∨ o.task = .all ∨ o.task = .check →
    ((p.config.tools.strip, "binutils") ∈ o.task.tools p.config ↔ (p.toolchain programs).matchesHost = true)
  /-- If a tool is not there, the run fails with all that are not, in the order in which they were looked for, and has done nothing else. -/
  missing : (∃ t ∈ o.task.tools p.config, s.machine.hasTool t.1 = false) →
    runArguments programs args s = .error { cause := .toolsMissing (s.machine.missing (o.task.tools p.config)) } s ∧
      exitCode programs args s = (1, { s with machine := { s.machine with
        err := s.machine.err ++
          s!"Error: {(Cause.toolsMissing (s.machine.missing (o.task.tools p.config))).message}\n".toUTF8 } })
  /-- The tools of several tasks are looked for together, -/
  merged : ∀ t, (o.task = .all → (t ∈ o.task.tools p.config ↔ t ∈ p.config.stageTools ∨ t ∈ p.config.imageTools)) ∧
    (o.task = .check →
      (t ∈ o.task.tools p.config ↔ t ∈ p.config.stageTools ∨ t ∈ p.config.imageTools ∨ t ∈ p.config.qemuTools))
  /-- and those of them that are not there are named in the order of names and hints, each of them once. -/
  sorted : o.task = .all ∨ o.task = .check →
    (s.machine.missing (o.task.tools p.config)).Pairwise fun a b => toLex a < toLex b
  /-- To check all is to check for each of the tasks. -/
  check : o.task = .check → ((exitCode programs args s).1 = 0 ↔
    endedWell (checkTools (Task.stage.tools p.config) s.machine) = true ∧
      endedWell (checkTools (Task.image.tools p.config) s.machine) = true ∧
      endedWell (checkTools (Task.qemu.tools p.config) s.machine) = true)
  /-- The tools of a staging and an assembly are there exactly when those of each are. -/
  all : o.task = .all → (endedWell (checkTools (o.task.tools p.config) s.machine) = true ↔
    endedWell (checkTools (Task.stage.tools p.config) s.machine) = true ∧
      endedWell (checkTools (Task.image.tools p.config) s.machine) = true)

section Runs

variable {args : List String} {o : Options} {p : Project} {s : Session}

/-- What a run asks the toolchain for. -/
theorem asks_runArguments (programs : Programs) (hparse : Options.parse args = .ok o)
    (hproject : o.settings.project s.machine = .ok p s.machine) :
    ∃ new, (endOf (runArguments programs args s)).calls = s.calls ++ new ∧ ∀ c ∈ new, c.uses p.config ⊆ o.task.tools p.config := by
  rcases s.machine.missing_or_found (o.task.tools p.config) with h | h
  · rw [runArguments_of_missing programs hparse hproject h, endOf_error]
    exact ⟨[], (List.append_nil _).symm, nofun⟩
  · rw [runArguments_of_found programs hparse hproject h]
    obtain ⟨new, hcalls, hallowed⟩ := o.task.asks_perform programs p o.settings s
    exact ⟨new, hcalls, fun c hc => Task.uses_subset (hallowed c hc)⟩

/-- What a run starts are its tools. -/
theorem RunChildren.program_mem {programs : Programs} {new : List Command} {c : Command} (h : RunChildren programs args s new)
    (hparse : Options.parse args = .ok o) (hproject : o.settings.project s.machine = .ok p s.machine) (hc : c ∈ new) :
    c.program ∈ (o.task.tools p.config).map Prod.fst := by
  cases h with
  | faultyArguments | faultyConfig | toolsMissing => cases hc
  | begun o' p' capacity hparse' hproject' _ _ hnew =>
    cases hparse.symm.trans hparse'
    cases hproject.symm.trans hproject'
    exact hnew.program_mem hc

/-- A check ends well exactly when the tools are there. -/
theorem exitCode_check (programs : Programs) (hparse : Options.parse args = .ok o) (hproject : o.settings.project s.machine = .ok p s.machine)
    (htask : o.task = .check) :
    (exitCode programs args s).1 = 0 ↔ endedWell (checkTools (o.task.tools p.config) s.machine) = true := by
  rw [exitCode_eq_zero_iff, endedWell_checkTools]
  rcases s.machine.missing_or_found (o.task.tools p.config) with h | h
  · rw [runArguments_of_missing programs hparse hproject h]
    refine iff_of_false nofun fun hfound => ?_
    obtain ⟨t, ht, hno⟩ := h
    rw [hfound t ht] at hno
    cases hno
  · rw [runArguments_of_found programs hparse hproject h, htask]
    exact iff_of_true rfl (htask ▸ h)

end Runs

/-- The look for tools comes first, and covers all that the run starts and asks for. -/
theorem exitCode_tools (programs : Programs) (args : List String) {o : Options} {p : Project} {s : Session}
    (hparse : Options.parse args = .ok o) (hproject : o.settings.project s.machine = .ok p s.machine) : ToolsCover programs args o p s := by
  obtain ⟨err, hend⟩ := endOf_exitCode programs args s
  constructor
  case started =>
    obtain ⟨new, hchildren, hnew⟩ := children_of_runArguments programs args s
    rw [hend]
    exact ⟨new, hchildren, fun c hc => hnew.program_mem hparse hproject hc⟩
  case asked =>
    rw [hend]
    exact asks_runArguments programs hparse hproject
  case strip =>
    intro htask
    refine Task.mem_tools_strip ?_ p.config
    rcases htask with h | h | h <;> simp [h, Task.parts]
  case missing =>
    intro h
    have hrun := runArguments_of_missing programs hparse hproject h
    refine ⟨hrun, ?_⟩
    unfold exitCode
    rw [hrun]
    rfl
  case merged =>
    intro t
    constructor
    · intro htask
      simp [htask, Task.tools, Tool.mem_sorted]
    · intro htask
      simp [htask, Task.tools, Tool.mem_sorted]
  case sorted => exact fun htask => (Task.strict_tools htask p.config).filter _
  case check =>
    intro htask
    rw [exitCode_check programs hparse hproject htask, Task.endedWell_checkTools, htask]
    simp [Task.parts]
  case all =>
    intro htask
    rw [Task.endedWell_checkTools, htask]
    simp [Task.parts]

/-- A check on a machine that has two of the four tools it looks for. -/
theorem exitCode_tools_sampleBlocked :
    Options.parse ["check"] = .ok ⟨.check, {}⟩ ∧ Settings.project {} sampleBlocked.machine = .ok .stock sampleBlocked.machine ∧
      (∀ t, t ∈ sampleBlocked.machine.missing (Task.check.tools Project.stock.config) ↔
        t = ("cargo-bootimage", "cargo install bootimage") ∨ t = ("qemu-system-x86_64", "qemu")) ∧
      ToolsCover .idle ["check"] ⟨.check, {}⟩ .stock sampleBlocked := by
  have hparse : Options.parse ["check"] = .ok ⟨.check, {}⟩ := rfl
  have hproject : Settings.project {} sampleBlocked.machine = .ok .stock sampleBlocked.machine :=
    Settings.project_of_no_file rfl (by decide +kernel)
  refine ⟨hparse, hproject, fun t => ?_, exitCode_tools .idle ["check"] hparse hproject⟩
  have hparts : sampleBlocked.machine.missing
      (Project.stock.config.stageTools ++ Project.stock.config.imageTools ++ Project.stock.config.qemuTools) =
        [("cargo-bootimage", "cargo install bootimage"), ("qemu-system-x86_64", "qemu")] := by decide +kernel
  have hlisted : t ∈ sampleBlocked.machine.missing (Task.check.tools Project.stock.config) ↔
      t ∈ [("cargo-bootimage", "cargo install bootimage"), ("qemu-system-x86_64", "qemu")] := by
    rw [← hparts, Machine.mem_missing, Machine.mem_missing]
    exact and_congr_left fun _ => Tool.mem_sorted
  rw [hlisted, List.mem_cons, List.mem_singleton]

end BootDisk
