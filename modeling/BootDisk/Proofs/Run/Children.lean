import BootDisk.CommandLine
import BootDisk.Proofs.Assembly
import BootDisk.Proofs.Frame
import BootDisk.Proofs.Staging.Rebuild

/-!
# The programs that a task starts

Every attempt to start a program is noted in order. Most of what a run does starts none, which is said part by part first; what is left are
the four commands of a project. Which of them are started, and how often, is told by the sessions that the task goes through: for a staging
by `StageChildren`, for an assembly by `ImageChildren`, and for any task by `TaskChildren`.
-/

namespace BootDisk

/-! ## What starts no program -/

namespace Install

theorem leaves_removeLink (path : Path) : Leaves Machine.fixtures (removeLink path) := by
  unfold removeLink
  exact .bind (.holds _) fun _ => .ite (.during _ (.files _)) (.pure ())

theorem leaves_placeholder (path : Path) : Leaves Machine.fixtures (placeholder path) := by
  unfold placeholder
  exact .bind (leaves_removeLink path) fun _ => .during _ (.bind (.files _) fun _ => .pure ())

theorem leaves_copyIn (binary path : Path) : Leaves Machine.fixtures (copyIn binary path) := by
  unfold copyIn makeExecutable
  exact .bind (leaves_removeLink path) fun _ => .bind (.during _ (.files _)) fun _ =>
    .bind (.during _ (.look _)) fun _ => .during _ (.files _)

end Install

namespace Manifest

/-- To take the measure of what is installed changes nothing. -/
theorem leaves_entryFor (i : Installed) : Leaves id (entryFor i) := by
  unfold entryFor measure
  exact .bind (.bind (.during _ (.look _)) fun _ => .bind (.look _) fun _ => .pure _) fun _ => .pure _

theorem leaves_ofReport (r : StageReport) : Leaves id (ofReport r) :=
  .bind (.mapM leaves_entryFor _) fun _ => .bind (fun _ => rfl) fun _ => .pure _

theorem leaves_write (stateDir : Path) (r : StageReport) : Leaves Machine.fixtures (write stateDir r) :=
  .bind ((leaves_ofReport r).of_part Machine.fixtures) fun _ => .bind (.during _ (.files _)) fun _ =>
    .bind (.during _ (.files _)) fun _ => .pure _

end Manifest

namespace Container

theorem leaves_create (path : Path) (size : Nat) : Leaves Machine.fixtures (create path size) := by
  unfold create
  exact .bind (.during _ (.files _)) fun _ => .during _ (.files _)

theorem leaves_ensure {tools : Toolchain} (hcreate : tools.create = create) (path : Path) (capacity : Nat) :
    Leaves (fun s => s.machine.fixtures) (ensure tools path capacity) := by
  have hnew : Leaves (fun s : Session => s.machine.fixtures) (ensure.create tools path capacity) := by
    unfold ensure.create
    rw [hcreate]
    exact .bind (.call _ (leaves_create path capacity)) fun _ =>
      .bind (.during _ (.toRun (.look _))) fun _ => .ite (.pure _) (.fail _)
  intro s
  unfold ensure
  split
  · rfl
  · rfl
  · exact hnew s
  · rfl

theorem leaves_writeBlob (container blob : Path) : Leaves Machine.fixtures (writeBlob container blob) := by
  unfold writeBlob
  refine .bind (.during _ (.look _)) fun image => .bind (.during _ (.look _)) fun (place, node) => ?_
  dsimp only
  have hstore (f : File) : Leaves Machine.fixtures (do
      Act.files fun _ => FileCall.store place node (image.overwrite f.content)
      return (⟨image.length, lengthOf node⟩ : Written)) := .bind (.files _) fun _ => .pure _
  have hflush : Leaves Machine.fixtures (do
      during (.flushingContainer container) (fail (.io (.os .invalidArgument)) : Act Unit)
      return (⟨image.length, lengthOf node⟩ : Written)) := .bind (.during _ (.fail _)) fun _ => .pure _
  cases node with
  | file f => exact .ite (.bind (.fail _) fun _ => hstore f) (hstore f)
  | _ => exact .ite (.bind (.fail _) fun _ => hflush) hflush

end Container

namespace Staging

theorem leaves_ready (installDir : Path) : Leaves (fun s => s.machine.fixtures) (ready installDir) :=
  .during _ (.toRun (.files _))

theorem leaves_hold (profile : Profile) (installDir : Path) (q : Program) :
    Leaves (fun s => s.machine.fixtures) (hold profile installDir q) :=
  .bind (.toRun (Install.leaves_placeholder _)) fun _ => .toRun (.print _)

theorem leaves_putIn (installDir : Path) (q : Program) (binary : Path) :
    Leaves (fun s => s.machine.fixtures) (putIn installDir q binary) :=
  .bind (.toRun (Install.leaves_copyIn _ _)) fun _ => .pure _

end Staging

namespace Project

variable (programs : Programs) (p : Project)

theorem leaves_expectFile (path : Path) (c : Cause) : Leaves Machine.fixtures (expectFile path c) :=
  .bind (.holds _) fun _ => .ite (.pure ()) (.fail _)

theorem leaves_invalidate : Leaves Machine.fixtures p.invalidate := by
  unfold invalidate
  refine .bind (.during _ (.look _)) fun (place, node) => ?_
  cases node with
  | file f => exact fun _ => rfl
  | _ => exact .pure ()

/-! ## The commands -/

/-- The command that builds a program, as it is started. -/
def compileCall (name : String) (profile : Profile) : Command :=
  { p.compileCommand name profile with note := some s!"building '{name}' failed" }

/-- The command that builds the boot image, as it is started. -/
def embedCall (profile : Profile) : Command :=
  { p.embedCommand profile with note := some "building boot image failed" }

/-- The command that strips binaries, as it is started. -/
def stripCall (paths : List Path) : Command :=
  { p.stripCommand paths with note := some "stripping staged binaries failed" }

/-- The command that boots the image, as it is started. -/
def bootCall (kvm headless : Bool) (serialLog : Option Path) : Command :=
  { (p.guest kvm headless serialLog).command with echo := p.verbose, note := some "qemu exited with an error" }

/-- A build ends well exactly when its command is started, ends well, and has left a file where its output belongs. -/
theorem endedWell_build (c : Command) (path : Path) (cause : Cause) (m : Machine) :
    endedWell ((c.run programs >>= fun _ => expectFile path cause >>= fun _ => (pure path : Act Path)) m) = true ↔
      c.Makes programs path m := by
  rcases c.run_cases programs m with ⟨m', hrun, hnul, hcwd, out, err, hprog⟩ | ⟨e, m', hrun, hno⟩
  · rw [bind_of_ok hrun]
    have hexpect : Act.holds (fun t cwd => t.isFile cwd path) m' = .ok (m'.tree.isFile m'.cwd path) m' := rfl
    by_cases hfile : m'.tree.isFile m'.cwd path = true
    · have hok : expectFile path cause m' = .ok () m' := (bind_of_ok hexpect).trans (congrFun (if_pos hfile) m')
      rw [bind_of_ok hok]
      exact iff_of_true rfl ⟨hnul, out, err, m'.tree, hprog, by rwa [← hcwd]⟩
    · have hfail : expectFile path cause m' = .error ⟨[], cause⟩ m' := (bind_of_ok hexpect).trans (congrFun (if_neg hfile) m')
      rw [bind_of_error hfail]
      refine iff_of_false nofun ?_
      rintro ⟨-, out', err', t, hprog', hfile'⟩
      rw [hprog] at hprog'
      cases hprog'
      exact hfile (by rwa [hcwd])
  · rw [bind_of_error hrun]
    refine iff_of_false nofun ?_
    rintro ⟨hnul, out, err, t, hprog, -⟩
    exact hno out err t hnul hprog

theorem notes_compile (name : String) (profile : Profile) : Notes (p.compileCall name profile) (p.compile programs name profile) :=
  .bind (Command.notes_run _ _) fun _ => .bind (leaves_expectFile _ _) fun _ => .pure _

theorem notes_embed (profile : Profile) : Notes (p.embedCall profile) (p.embed programs profile) :=
  .bind (Command.notes_run _ _) fun _ => .bind (leaves_expectFile _ _) fun _ => .pure _

theorem notes_strip {paths : List Path} (h : paths ≠ []) : Notes (p.stripCall paths) (p.strip programs paths) := by
  unfold strip
  rw [if_neg h]
  exact Command.notes_run _ _

end Project

/-! ## Staging -/

namespace Staging

variable {programs : Programs} {p : Project} {profile : Profile} {installDir : Path} {q : Program} {row : List Program}
variable {s s₁ s' : Session}

/-- A program whose install path cannot be taken hold of is not compiled. -/
theorem children_of_hold_error {e : Failure} (programs : Programs) (p : Project) (h : hold profile installDir q s = .error e s₁) :
    (endOf (stageProgram (p.toolchain programs) profile installDir q s)).machine.children = s.machine.children := by
  rw [stageProgram_eq, bind_of_error h, endOf_error]
  exact (leaves_hold profile installDir q).children.of_error h

/-- A program whose install path has been taken hold of is compiled once, whatever comes of it. -/
theorem children_of_hold_ok (programs : Programs) (p : Project) (h : hold profile installDir q s = .ok () s₁) :
    (endOf (stageProgram (p.toolchain programs) profile installDir q s)).machine.children =
      s.machine.children ++ [p.compileCall q.name profile] := by
  have hhold : s₁.machine.children = s.machine.children := (leaves_hold profile installDir q).children.of_ok h
  have hcomp : (endOf (Staging.compile (p.toolchain programs) profile q s₁)).machine.children =
      s₁.machine.children ++ [p.compileCall q.name profile] := by
    rw [endOf_compile]
    exact (p.notes_compile programs q.name profile).children s₁.machine
  rw [stageProgram_eq, bind_of_ok h, ← hhold, ← hcomp]
  cases hc : Staging.compile (p.toolchain programs) profile q s₁ with
  | error e s₂ =>
    rw [bind_of_error hc]
    rfl
  | ok binary s₂ =>
    rw [bind_of_ok hc]
    exact (leaves_putIn installDir q binary).children s₂

/-- Programs that are all staged are compiled one after the other. -/
theorem children_of_mapM {installed : List Installed}
    (h : row.mapM (stageProgram (p.toolchain programs) profile installDir) s = .ok installed s') :
    s'.machine.children = s.machine.children ++ row.map fun q => p.compileCall q.name profile := by
  induction row generalizing s installed with
  | nil =>
    rw [List.mapM_nil, pure_run] at h
    cases h
    exact (List.append_nil _).symm
  | cons q row ih =>
    obtain ⟨i, s₁, is, hq, hrest, -⟩ := mapM_cons_eq_ok.1 h
    have hfirst : s₁.machine.children = s.machine.children ++ [p.compileCall q.name profile] := by
      rw [stageProgram_eq] at hq
      obtain ⟨_, s₂, hhold, -⟩ := bind_eq_ok.1 hq
      have hfirst := children_of_hold_ok programs p hhold
      rw [stageProgram_eq, hq, endOf_ok] at hfirst
      exact hfirst
    rw [ih hrest, hfirst, List.append_assoc]
    rfl

/-- What is installed is stripped in one call, where the host can. -/
theorem children_of_strip {installed : List Installed} (programs : Programs) (p : Project) (hne : installed ≠ []) (s : Session) :
    (endOf (strip (p.toolchain programs) installed s)).machine.children =
      s.machine.children ++ if (p.toolchain programs).matchesHost then [p.stripCall (installed.map Installed.path)] else [] := by
  by_cases hhost : (p.toolchain programs).matchesHost = true
  · obtain ⟨s₁, hprint, -⟩ := Act.print_toRun s!"[stage] stripping {(installed.map Installed.path).length} binaries" s
    have hchildren : s₁.machine.children = s.machine.children := (Leaves.print _).toRun.children.of_ok hprint
    rw [endOf_strip_of_host hhost hprint, Run.endOf_call, if_pos hhost, ← hchildren]
    exact (p.notes_strip programs fun hnil => hne (List.map_eq_nil_iff.1 hnil)).children s₁.machine
  · have hleaves : Leaves (fun s : Session => s.machine.fixtures) (strip (p.toolchain programs) installed) := by
      unfold strip
      rw [if_neg hhost]
      exact .bind (.toRun (.warn _)) fun _ => .pure _
    rw [if_neg hhost, List.append_nil]
    exact hleaves.children s

end Staging

/-- The programs that a staging starts, in order. Nothing is started if the search fails or finds nothing, or the install directory cannot be
made. Otherwise the programs are compiled in order, up to the first that is not staged: it is compiled if its install path can be taken hold
of, and it is not staged if it is not built or cannot be put in. Where all are staged, they are stripped together, if the host can. -/
inductive StageChildren (programs : Programs) (p : Project) (profile : Profile) (sourceDir installDir : Path) (s : Session) :
    List Command → Prop where
  | unread (e : Failure) (m : Machine) : Program.discover sourceDir s.machine = .error e m →
      StageChildren programs p profile sourceDir installDir s []
  | none : Program.discover sourceDir s.machine = .ok [] s.machine → StageChildren programs p profile sourceDir installDir s []
  | notReady (row : List Program) (e : Failure) (s₁ : Session) : Program.discover sourceDir s.machine = .ok row s.machine →
      row ≠ [] → Staging.ready installDir s = .error e s₁ → StageChildren programs p profile sourceDir installDir s []
  | notHeld (before rest : List Program) (q : Program) (installed : List Installed) (e : Failure) (s₁ s₂ s₃ : Session) :
      Program.discover sourceDir s.machine = .ok (before ++ q :: rest) s.machine → Staging.ready installDir s = .ok () s₁ →
      before.mapM (Staging.stageProgram (p.toolchain programs) profile installDir) s₁ = .ok installed s₂ →
      Staging.hold profile installDir q s₂ = .error e s₃ →
      StageChildren programs p profile sourceDir installDir s (before.map fun q => p.compileCall q.name profile)
  | notStaged (before rest : List Program) (q : Program) (installed : List Installed) (s₁ s₂ s₃ : Session) :
      Program.discover sourceDir s.machine = .ok (before ++ q :: rest) s.machine → Staging.ready installDir s = .ok () s₁ →
      before.mapM (Staging.stageProgram (p.toolchain programs) profile installDir) s₁ = .ok installed s₂ →
      Staging.hold profile installDir q s₂ = .ok () s₃ →
      (¬ (p.compileCall q.name profile).Makes programs (p.artifactPath q.name profile) s₃.machine ∨
        ∃ binary s₄ e s₅, Staging.compile (p.toolchain programs) profile q s₃ = .ok binary s₄ ∧
          Staging.putIn installDir q binary s₄ = .error e s₅) →
      StageChildren programs p profile sourceDir installDir s ((before ++ [q]).map fun q => p.compileCall q.name profile)
  | staged (row : List Program) (installed : List Installed) (s₁ s₂ : Session) :
      Program.discover sourceDir s.machine = .ok row s.machine → row ≠ [] → Staging.ready installDir s = .ok () s₁ →
      row.mapM (Staging.stageProgram (p.toolchain programs) profile installDir) s₁ = .ok installed s₂ →
      StageChildren programs p profile sourceDir installDir s ((row.map fun q => p.compileCall q.name profile) ++
        if (p.toolchain programs).matchesHost then [p.stripCall (Staging.installPaths installDir row)] else [])

namespace Staging

variable {programs : Programs} {p : Project} {profile : Profile} {sourceDir installDir : Path} {row : List Program} {s : Session}

/-- A compilation is a build. -/
theorem endedWell_compile (programs : Programs) (p : Project) (profile : Profile) (q : Program) (s : Session) :
    endedWell (Staging.compile (p.toolchain programs) profile q s) = true ↔
      (p.compileCall q.name profile).Makes programs (p.artifactPath q.name profile) s.machine := by
  have hbuild := Project.endedWell_build programs (p.compileCall q.name profile) (p.artifactPath q.name profile)
    (.artifactMissing q.name (p.artifactPath q.name profile)) s.machine
  rw [← hbuild, endedWell_iff, endedWell_iff]
  constructor
  · rintro ⟨binary, s₁, h⟩
    exact ⟨binary, s₁.machine, (compile_ok h).1⟩
  · rintro ⟨binary, m, h⟩
    exact ⟨binary, _, during_eq_ok.2 (Run.call_of_ok h)⟩

/-- What is started for programs that are found. -/
theorem children_of_stageAll (hdisc : Program.discover sourceDir s.machine = .ok row s.machine) (hne : row ≠ []) :
    ∃ new, (endOf (stageAll (p.toolchain programs) profile installDir row s)).machine.children = s.machine.children ++ new ∧
      StageChildren programs p profile sourceDir installDir s new := by
  unfold stageAll
  cases hready : ready installDir s with
  | error e s₁ =>
    refine ⟨[], ?_, .notReady row e s₁ hdisc hne hready⟩
    rw [bind_of_error hready, endOf_error, List.append_nil, (leaves_ready installDir).children.of_error hready]
  | ok _ s₁ =>
    rw [bind_of_ok hready, ← (leaves_ready installDir).children.of_ok hready]
    cases hmap : row.mapM (stageProgram (p.toolchain programs) profile installDir) s₁ with
    | error e s₂ =>
      rw [bind_of_error hmap, endOf_error]
      obtain ⟨before, q, rest, installed, s₃, rfl, hbefore, hfail⟩ := mapM_eq_error hmap
      have hchildren := children_of_mapM hbefore
      cases hhold : hold profile installDir q s₃ with
      | error e' s₄ =>
        have hstaged := children_of_hold_error programs p hhold
        rw [hfail, endOf_error] at hstaged
        exact ⟨_, hstaged.trans hchildren, .notHeld before rest q installed e' s₁ s₃ s₄ hdisc hready hbefore hhold⟩
      | ok _ s₄ =>
        have hstaged := children_of_hold_ok programs p hhold
        rw [hfail, endOf_error, hchildren, List.append_assoc] at hstaged
        refine ⟨_, hstaged.trans (by rw [List.map_append]; rfl), .notStaged before rest q installed s₁ s₃ s₄ hdisc hready hbefore hhold ?_⟩
        rw [stageProgram_eq, bind_of_ok hhold] at hfail
        rcases bind_eq_error.1 hfail with hcomp | ⟨binary, s₅, hcomp, hput⟩
        · refine Or.inl fun hmakes => ?_
          have hended := (endedWell_compile programs p profile q s₄).2 hmakes
          rw [hcomp] at hended
          cases hended
        · exact Or.inr ⟨binary, s₅, e, s₂, hcomp, hput⟩
    | ok installed s₂ =>
      have hpaths : installed.map Installed.path = installPaths installDir row := by
        rw [installed_of_mapM hmap, installPaths, List.map_map]
        rfl
      have hinstalled : installed ≠ [] := by
        rw [installed_of_mapM hmap]
        exact fun hnil => hne (List.map_eq_nil_iff.1 hnil)
      refine ⟨_, ?_, .staged row installed s₁ s₂ hdisc hne hready hmap⟩
      have hstrip := children_of_strip programs p hinstalled s₂
      rw [children_of_mapM hmap, hpaths, List.append_assoc] at hstrip
      rw [bind_of_ok hmap, ← hstrip]
      cases hs : strip (p.toolchain programs) installed s₂ with
      | error e s₃ =>
        rw [bind_of_error hs]
        rfl
      | ok stripped s₃ =>
        rw [bind_of_ok hs]
        have hprint := (Leaves.print s!"[stage] installed {installed.length} binaries into {installDir.text}").toRun
        exact (hprint.bind fun _ => .pure (⟨profile, installed, stripped⟩ : StageReport)).children s₃

/-- What a staging starts. -/
theorem children_of_rebuild (programs : Programs) (p : Project) (profile : Profile) (sourceDir installDir : Path) (s : Session) :
    ∃ new, (endOf (rebuild (p.toolchain programs) profile sourceDir installDir s)).machine.children = s.machine.children ++ new ∧
      StageChildren programs p profile sourceDir installDir s new := by
  cases hdisc : Program.discover sourceDir s.machine with
  | error e m =>
    rw [rebuild_of_unread _ _ _ hdisc]
    exact ⟨[], (List.append_nil _).symm, .unread e m hdisc⟩
  | ok row m =>
    cases Program.machine_of_discover hdisc
    by_cases hnil : row = []
    · subst hnil
      obtain ⟨s₁, hprint, hrebuild, -⟩ := rebuild_of_none (p.toolchain programs) profile installDir hdisc
      refine ⟨[], ?_, .none hdisc⟩
      rw [hrebuild, endOf_ok, List.append_nil, (Leaves.print _).toRun.children.of_ok hprint]
    · rw [rebuild_of_found _ _ _ hdisc hnil]
      exact children_of_stageAll hdisc hnil

end Staging

namespace Project

variable (programs : Programs) (p : Project) {s : Session}

/-- Putting a staging on record starts nothing. -/
theorem children_of_stage (s : Session) :
    ∃ new, (endOf (p.stage (p.toolchain programs) s)).machine.children = s.machine.children ++ new ∧
      StageChildren programs p p.profile p.config.userspace.sourceDir p.config.userspace.installDir s new := by
  obtain ⟨new, hchildren, hnew⟩ := Staging.children_of_rebuild programs p p.profile p.config.userspace.sourceDir
    p.config.userspace.installDir s
  refine ⟨new, ?_, hnew⟩
  rw [← hchildren]
  unfold stage
  dsimp only
  cases h : Staging.rebuild (p.toolchain programs) p.profile p.config.userspace.sourceDir p.config.userspace.installDir s with
  | error e s₁ => rw [bind_of_error h]
  | ok report s₁ =>
    rw [bind_of_ok h]
    have hrecord : Leaves (fun s : Session => s.machine.fixtures) (if report.installed ≠ [] then do
        let path ← (Manifest.write p.stateDir report).toRun
        Act.print s!"[stage] manifest: {path.text}"
        pure report
      else pure report) :=
      .ite (.bind (.toRun (Manifest.leaves_write _ _)) fun _ => .bind (.lift (.print _)) fun _ => .pure _) (.pure _)
    exact hrecord.children s₁

end Project

/-! ### Where the run works -/

/-- A staging leaves where the run works, where it looks for programs, and what time it is. -/
theorem Staging.leaves_rebuild (programs : Programs) (p : Project) (profile : Profile) (sourceDir installDir : Path) :
    Leaves (fun s => s.machine.bearings) (rebuild (p.toolchain programs) profile sourceDir installDir) := by
  have hprint (line : String) : Leaves (fun s : Session => s.machine.bearings) (liftM (Act.print line) : Run Unit) :=
    (Leaves.print line).lift.bearings
  have hstage (q : Program) : Leaves (fun s => s.machine.bearings) (stageProgram (p.toolchain programs) profile installDir q) := by
    rw [stageProgram_eq]
    exact .bind (leaves_hold _ _ _).bearings fun _ => .bind (.during _ (.call _ (p.notes_compile programs _ _).bearings)) fun _ =>
      (leaves_putIn _ _ _).bearings
  have hstripped (paths : List Path) : Leaves Machine.bearings (p.strip programs paths) :=
    .ite (.pure ()) (Command.notes_run _ _).bearings
  have hstrip (installed : List Installed) : Leaves (fun s => s.machine.bearings) (strip (p.toolchain programs) installed) :=
    .ite (.bind (hprint _) fun _ => .bind (.call _ (hstripped _)) fun _ => .pure _)
      (.bind (Leaves.warn _).lift.bearings fun _ => .pure _)
  have hdiscover : Leaves (fun s : Session => s.machine.bearings) (Program.discover sourceDir).toRun :=
    .toRun fun m => congrArg Machine.bearings (Program.endOf_discover sourceDir m)
  exact .bind hdiscover fun row => .ite (.bind (hprint _) fun _ => .pure _) <| .bind (leaves_ready _).bearings fun _ =>
    .bind (.mapM hstage row) fun _ => .bind (hstrip _) fun _ => .bind (hprint _) fun _ => .pure _

theorem Project.leaves_stage (programs : Programs) (p : Project) :
    Leaves (fun s => s.machine.bearings) (p.stage (p.toolchain programs)) :=
  .bind (Staging.leaves_rebuild programs p _ _ _) fun _ => .ite
    (.bind (Manifest.leaves_write _ _).toRun.bearings fun _ => .bind (Leaves.print _).lift.bearings fun _ => .pure _) (.pure _)

/-! ## Assembling -/

/-- The programs that assembling an image starts: the build of the boot image, once, if the container is there or was created, and the entry
source can be touched then. -/
inductive ImageChildren (programs : Programs) (p : Project) (capacity : Nat) (s : Session) : List Command → Prop where
  | unprepared (e : Failure) (s₁ : Session) : s.machine.file? p.config.image.path = none →
      Assembly.prepare (p.toolchain programs) p.profile p.config.image.path capacity s = .error e s₁ →
      ImageChildren programs p capacity s []
  | untouched (state : Container.State) (e : IoError) (s₁ : Session) :
      Assembly.prepare (p.toolchain programs) p.profile p.config.image.path capacity s = .ok state s₁ →
      s₁.machine.tree.openWrite s₁.machine.cwd p.config.kernel.entrySource = .error e → ImageChildren programs p capacity s []
  | embedded (state : Container.State) (source : Place × Node) (s₁ : Session) :
      Assembly.prepare (p.toolchain programs) p.profile p.config.image.path capacity s = .ok state s₁ →
      (∃ q f, s₁.machine.file? p.config.image.path = some (q, f)) →
      s₁.machine.tree.openWrite s₁.machine.cwd p.config.kernel.entrySource = .ok source →
      ImageChildren programs p capacity s [p.embedCall p.profile]

namespace Assembly

variable {programs : Programs} {p : Project} {profile : Profile} {path : Path} {capacity : Nat} {s s₁ : Session}

theorem leaves_prepare {tools : Toolchain} (hcreate : tools.create = Container.create) (profile : Profile) (path : Path) (capacity : Nat) :
    Leaves (fun s => s.machine.fixtures) (prepare tools profile path capacity) :=
  .bind (.lift (.print _)) fun _ => .bind (Container.leaves_ensure hcreate path capacity) fun _ => .bind (.lift (.print _)) fun _ => .pure _

theorem leaves_refresh (programs : Programs) (p : Project) : Leaves (fun s => s.machine.fixtures) (refresh (p.toolchain programs)) :=
  .bind (.during _ (.call _ p.leaves_invalidate)) fun _ => .lift (.print _)

theorem leaves_write (path : Path) (state : Container.State) (blob : Path) : Leaves (fun s => s.machine.fixtures) (write path state blob) :=
  .bind (.lift (Container.leaves_writeBlob _ _)) fun _ => .bind (.lift (.print _)) fun _ => .pure _

/-- The kernel is forgotten where its entry source can be opened to be written. -/
theorem refresh_cases (programs : Programs) (p : Project) (s : Session) :
    (∃ source s₁, s.machine.tree.openWrite s.machine.cwd p.config.kernel.entrySource = .ok source ∧
        refresh (p.toolchain programs) s = .ok () s₁) ∨
      (∃ e f s₁, s.machine.tree.openWrite s.machine.cwd p.config.kernel.entrySource = .error e ∧
        refresh (p.toolchain programs) s = .error f s₁) := by
  cases hopen : s.machine.tree.openWrite s.machine.cwd p.config.kernel.entrySource with
  | error e =>
    have hinvalidate : ∃ f, p.invalidate s.machine = .error f s.machine :=
      ⟨_, bind_of_error (during_of_error (Act.look_of_error hopen))⟩
    obtain ⟨f, hinvalidate⟩ := hinvalidate
    exact Or.inr ⟨e, _, _, rfl, bind_of_error (during_of_error (Run.call_of_error (c := .invalidate) hinvalidate))⟩
  | ok source =>
    have hinvalidate : ∃ m, p.invalidate s.machine = .ok () m := by
      obtain ⟨place, node⟩ := source
      have hlook : Act.look (fun t cwd => t.openWrite cwd p.config.kernel.entrySource) s.machine = .ok (place, node) s.machine :=
        Act.look_of_ok hopen
      cases node with
      | file f => exact ⟨_, bind_of_ok (during_eq_ok.2 hlook)⟩
      | _ => exact ⟨_, bind_of_ok (during_eq_ok.2 hlook)⟩
    obtain ⟨m, hinvalidate⟩ := hinvalidate
    obtain ⟨s₁, hprint, -⟩ := Act.print_toRun "[image] building kernel and bootloader..." ⟨m, s.calls ++ [.invalidate]⟩
    exact Or.inl ⟨source, s₁, rfl,
      (bind_of_ok (during_eq_ok.2 (Run.call_of_ok (c := .invalidate) hinvalidate))).trans hprint⟩

/-- What an assembly starts. -/
theorem children_of_assemble (programs : Programs) (p : Project) (capacity : Nat) (s : Session) :
    ∃ new, (endOf (assemble (p.toolchain programs) p.profile p.config.image.path capacity s)).machine.children =
        s.machine.children ++ new ∧ ImageChildren programs p capacity s new := by
  have hcreate : (p.toolchain programs).create = Container.create := rfl
  have hprepared := leaves_prepare hcreate p.profile p.config.image.path capacity
  rw [assemble_eq]
  unfold build
  cases hprep : prepare (p.toolchain programs) p.profile p.config.image.path capacity s with
  | error e s₁ =>
    rw [bind_of_error (bind_of_error hprep), endOf_error, hprepared.children.of_error hprep]
    exact ⟨[], (List.append_nil _).symm, .unprepared e s₁ (prepare_error hcreate hprep).1 hprep⟩
  | ok state s₁ =>
    have hchildren := hprepared.children.of_ok hprep
    rcases refresh_cases programs p s₁ with ⟨source, s₂, hopen, hrefresh⟩ | ⟨e, f, s₂, hopen, hrefresh⟩
    · refine ⟨[p.embedCall p.profile], ?_, .embedded state source s₁ hprep (file?_of_prepare hcreate hprep) hopen⟩
      have hembed : (endOf (embed (p.toolchain programs) p.profile s₂)).machine.children =
          s.machine.children ++ [p.embedCall p.profile] := by
        rw [embed, Run.endOf_call, ← hchildren, ← (leaves_refresh programs p).children.of_ok hrefresh]
        exact (p.notes_embed programs p.profile).children s₂.machine
      rw [← hembed]
      cases he : embed (p.toolchain programs) p.profile s₂ with
      | error e s₃ =>
        rw [bind_of_error ((bind_of_ok hprep).trans ((bind_of_ok hrefresh).trans (bind_of_error he)))]
        rfl
      | ok blob s₃ =>
        rw [bind_of_ok ((bind_of_ok hprep).trans ((bind_of_ok hrefresh).trans (bind_of_ok he)))]
        exact (leaves_write p.config.image.path state blob).children s₃
    · refine ⟨[], ?_, .untouched state e s₁ hprep hopen⟩
      rw [bind_of_error ((bind_of_ok hprep).trans (bind_of_error hrefresh)), endOf_error, List.append_nil, ← hchildren]
      exact (leaves_refresh programs p).children.of_error hrefresh

end Assembly

/-! ## Booting -/

namespace Project

variable (programs : Programs) (p : Project)

/-- Whether the emulator is told to use hardware help. -/
def asksKvm (m : Machine) : Bool :=
  (m.tree.stat m.cwd ⟨"/dev/kvm"⟩).isOk && Target.matchesHost p.config.target.triple

/-- Booting starts the emulator, once, if the image is a file. -/
theorem children_of_boot (headless : Bool) (serialLog : Option Path) (m : Machine) :
    (endOf (p.boot programs headless serialLog m)).children =
      m.children ++ if m.tree.isFile m.cwd p.config.image.path then [p.bootCall (p.asksKvm m) headless serialLog] else [] := by
  have hlook : Act.holds (fun t cwd => t.isFile cwd p.config.image.path) m = .ok (m.tree.isFile m.cwd p.config.image.path) m := rfl
  by_cases hfile : m.tree.isFile m.cwd p.config.image.path = true
  · have hcommand : p.bootCommand headless serialLog m = .ok (p.guest (p.asksKvm m) headless serialLog).command m :=
      (bind_of_ok hlook).trans (congrFun (if_pos hfile) m)
    rw [if_pos hfile, boot, bind_of_ok hcommand]
    refine Notes.children (.after (.print _) (fun _ => rfl) fun _ => ?_) m
    cases serialLog with
    | some log => exact .after (.print _) (fun _ => rfl) fun _ => .bind (Command.notes_runShown _ _) fun _ => .pure ()
    | none => exact .bind (Command.notes_runShown _ _) fun _ => .pure ()
  · have hcommand : p.bootCommand headless serialLog m = .error ⟨[], .imageMissing p.config.image.path⟩ m :=
      (bind_of_ok hlook).trans (congrFun (if_neg hfile) m)
    rw [if_neg hfile, boot, bind_of_error hcommand, endOf_error, List.append_nil]

end Project

/-! ## Tasks -/

/-- The programs that a task starts whose tools are there. The image is come to after a staging that ends well, record and all, and only
then. -/
inductive TaskChildren (programs : Programs) (p : Project) (settings : Settings) (capacity : Nat) (s : Session) :
    Task → List Command → Prop where
  | stage {new : List Command} :
      StageChildren programs p p.profile p.config.userspace.sourceDir p.config.userspace.installDir s new →
      TaskChildren programs p settings capacity s .stage new
  | image {new : List Command} : ImageChildren programs p capacity s new → TaskChildren programs p settings capacity s .image new
  | both {new new' : List Command} (report : StageReport) (s₁ : Session) :
      StageChildren programs p p.profile p.config.userspace.sourceDir p.config.userspace.installDir s new →
      p.stage (p.toolchain programs) s = .ok report s₁ → ImageChildren programs p capacity s₁ new' →
      TaskChildren programs p settings capacity s .all (new ++ new')
  | stageOnly {new : List Command} (e : Failure) (s₁ : Session) :
      StageChildren programs p p.profile p.config.userspace.sourceDir p.config.userspace.installDir s new →
      p.stage (p.toolchain programs) s = .error e s₁ → TaskChildren programs p settings capacity s .all new
  | booted : s.machine.tree.isFile s.machine.cwd p.config.image.path = true →
      TaskChildren programs p settings capacity s .qemu [p.bootCall (p.asksKvm s.machine) settings.headless settings.serialLog]
  | noImage : s.machine.tree.isFile s.machine.cwd p.config.image.path = false → TaskChildren programs p settings capacity s .qemu []
  | check : TaskChildren programs p settings capacity s .check []

namespace Project

variable {programs : Programs} {p : Project} {capacity : Nat}

/-- Assembling the image of a project is assembling one of its capacity. -/
theorem assemble_of_capacity (hcap : p.config.image.capacityBytes = .ok capacity) (tools : Toolchain) :
    p.assemble tools = BootDisk.assemble tools p.profile p.config.image.path capacity := by
  unfold assemble
  rw [hcap]

/-- What a task starts. -/
theorem children_of_perform (programs : Programs) (hcap : p.config.image.capacityBytes = .ok capacity) (t : Task) (settings : Settings)
    (s : Session) :
    ∃ new, (endOf (t.perform programs p settings s)).machine.children = s.machine.children ++ new ∧
      TaskChildren programs p settings capacity s t new := by
  cases t with
  | stage =>
    obtain ⟨new, hchildren, hnew⟩ := p.children_of_stage programs s
    refine ⟨new, ?_, .stage hnew⟩
    rw [Task.perform, ← hchildren, endOf_bind_pure]
  | image =>
    obtain ⟨new, hchildren, hnew⟩ := Assembly.children_of_assemble programs p capacity s
    refine ⟨new, ?_, .image hnew⟩
    rw [Task.perform, ← hchildren, endOf_bind_pure, assemble_of_capacity hcap]
  | all =>
    obtain ⟨new, hchildren, hnew⟩ := p.children_of_stage programs s
    rw [Task.perform]
    cases hstage : p.stage (p.toolchain programs) s with
    | error e s₁ =>
      rw [hstage, endOf_error] at hchildren
      refine ⟨new, ?_, .stageOnly e s₁ hnew hstage⟩
      rw [bind_of_error hstage, endOf_error, hchildren]
    | ok report s₁ =>
      rw [hstage, endOf_ok] at hchildren
      obtain ⟨new', hchildren', hnew'⟩ := Assembly.children_of_assemble programs p capacity s₁
      refine ⟨new ++ new', ?_, .both report s₁ hnew hstage hnew'⟩
      rw [bind_of_ok hstage, endOf_bind_pure, assemble_of_capacity hcap, hchildren', hchildren, List.append_assoc]
  | qemu =>
    have hboot := p.children_of_boot programs settings.headless settings.serialLog s.machine
    rw [Task.perform, Act.endOf_toRun]
    by_cases hfile : s.machine.tree.isFile s.machine.cwd p.config.image.path = true
    · rw [if_pos hfile] at hboot
      exact ⟨_, hboot, .booted hfile⟩
    · rw [if_neg hfile] at hboot
      exact ⟨_, hboot, .noImage (Bool.eq_false_iff.2 hfile)⟩
  | check =>
    refine ⟨[], ?_, .check⟩
    rw [List.append_nil]
    exact (Leaves.print _).toRun.children s

end Project

end BootDisk
