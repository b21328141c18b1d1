import BootDisk.Proofs.Options
import BootDisk.Proofs.Run.Calls
import BootDisk.Proofs.Run.Restaging
import BootDisk.Proofs.Run.Unrecorded

/-!
# Both tasks in one run

A run that stages and assembles is the run that stages and, only if that ended well, the run that assembles after it, under the same
options: the project is loaded again and the tools are looked for again, but if the staging has left these as they were, it comes to the
same.
-/

namespace BootDisk

/-- The session at another time. -/
def Session.atTime (s : Session) (clock : Nat) : Session :=
  { s with machine := { s.machine with clock := clock } }

/-- The project that a run of both tasks with these arguments is about. -/
def IsAbout (args : List String) (s : Session) (p : Project) : Prop :=
  ∃ settings, Options.parse args = .ok ⟨.all, settings⟩ ∧ settings.project s.machine = .ok p s.machine

/-- A run of both tasks, told by the runs of each. -/
structure BothInTurn (programs : Programs) (about : Project → Prop) (run : String → Session → Nat × Session) (s : Session) : Prop where
  /-- While the clock stands still, the run is that of the staging and, only if that exited with 0, that of the assembly after it. -/
  inTurn : run "all" s = if (run "stage" s).1 = 0 then run "image" (run "stage" s).2 else run "stage" s
  /-- It exits with 0 exactly when both do. -/
  exits : (run "all" s).1 = 0 ↔ (run "stage" s).1 = 0 ∧ (run "image" (run "stage" s).2).1 = 0
  /-- If the staging fails, no container is created, the kernel is not forgotten, and no boot image is built. -/
  cutOff : (run "stage" s).1 ≠ 0 → run "all" s = run "stage" s ∧
    ∃ new, (run "all" s).2.calls = s.calls ++ new ∧ ∀ c ∈ new, ¬ c.OfImage
  /-- If the work of the staging fails, the tree that is left is that of the staging, which tools and installs alone have changed, apart from
  directories made where nothing was: nothing was written into a container. -/
  unassembled : s.machine.tree.WellNamed → ∀ p e s', about p → p.stage (p.toolchain programs) s = .error e s' →
    (run "all" s).2.machine.tree = s'.machine.tree ∧
      ∃ moments, Course (p.StageStep programs (Staging.foundNames p.config.userspace.sourceDir s.machine)) s moments s'
  /-- If the assembly is made at another time, with programs that do not look at file times, only these differ in the end. -/
  later : programs.Respect Tree.SameButTimes → (run "stage" s).1 = 0 → ∀ clock,
    (run "all" s).1 = (run "image" ((run "stage" s).2.atTime clock)).1 ∧
      (run "all" s).2.Like Tree.SameButTimes (run "image" ((run "stage" s).2.atTime clock)).2
  /-- If the staging is made at another time, only the time in the manifest differs in the end. -/
  restaged : ∀ clock, (run "stage" s).1 = (run "stage" (s.atTime clock)).1 ∧
    (run "stage" s).2.Like (Manifest.SameButStamp s.machine.clock clock) (run "stage" (s.atTime clock)).2

namespace Settings

variable {settings : Settings} {p : Project} {m m' : Machine}

/-- A machine on which a run of these settings finds the configuration and the tools of an assembly as on the other. -/
def Finds (settings : Settings) (p : Project) (m m' : Machine) : Prop :=
  Config.textAt (Place.path m.cwd) settings.config m' = Config.textAt (Place.path m.cwd) settings.config m ∧
    ∀ t ∈ p.config.imageTools, m'.hasTool t.1 = m.hasTool t.1

/-- Where the text of the configuration is the same, the project is. -/
theorem project_of_textAt (hcwd : m'.cwd = m.cwd)
    (htext : Config.textAt (Place.path m.cwd) settings.config m' = Config.textAt (Place.path m.cwd) settings.config m)
    (h : settings.project m = .ok p m) : settings.project m' = .ok p m' := by
  obtain ⟨-, c, hload, rfl⟩ := project_eq_ok.1 h
  obtain ⟨-, c₀, hc, hcases⟩ := Config.load_eq_ok.1 hload
  refine project_eq_ok.2 ⟨rfl, c, ?_, by rw [hcwd]⟩
  rw [hcwd]
  exact Config.load_eq_ok.2 ⟨rfl, c₀, hc, by rwa [htext]⟩

end Settings

section Around

variable (programs : Programs) {before : List String} (after : List String) (s : Session)

/-- The runs of all tasks under the same options fail in the same way before anything is done, or are about the same project. -/
theorem runs_around (hbefore : ∀ option kind, Options.scan {} [] before ≠ .error (.missingValue option kind)) :
    (∃ f, ∀ t word, Task.ofWord? word = some t → runArguments programs (before ++ word :: after) s = .error f s) ∨
      ∃ settings p, (∀ t word, Task.ofWord? word = some t → Options.parse (before ++ word :: after) = .ok ⟨t, settings⟩) ∧
        settings.project s.machine = .ok p s.machine := by
  obtain ⟨r, hparse⟩ := Options.parse_word hbefore after
  cases r with
  | error e =>
    refine Or.inl ⟨{ cause := .option e }, fun t word hword => ?_⟩
    rw [runArguments, hparse t word hword]
    rfl
  | ok settings =>
    have hproject := settings.endOf_project s.machine
    cases h : settings.project s.machine with
    | error f m =>
      rw [h, endOf_error] at hproject
      subst hproject
      refine Or.inl ⟨f, fun t word hword => ?_⟩
      rw [runArguments, hparse t word hword]
      exact Options.run_of_project_error (o := ⟨t, settings⟩) programs h
    | ok p m =>
      rw [h, endOf_ok] at hproject
      subst hproject
      exact Or.inr ⟨settings, p, hparse, h⟩

end Around

/-- Runs that come to the same are reported the same. -/
theorem exitCode_congr {programs : Programs} {args args' : List String} {s s' : Session}
    (h : runArguments programs args s = runArguments programs args' s') : exitCode programs args s = exitCode programs args' s' := by
  unfold exitCode
  rw [h]

theorem exitCode_of_error {programs : Programs} {args : List String} {s s' : Session} {f : Failure}
    (h : runArguments programs args s = .error f s') : (exitCode programs args s).1 = 1 := by
  unfold exitCode
  rw [h]

theorem exitCode_of_ok {programs : Programs} {args : List String} {s s' : Session} (h : runArguments programs args s = .ok () s') :
    exitCode programs args s = (0, s') := by
  unfold exitCode
  rw [h]

section InTurn

variable {programs : Programs} {before after : List String} {s : Session}

/-- A run of both tasks is the run of the staging and, if that ends well, the run of the assembly after it. -/
theorem exitCode_inTurn (hbefore : ∀ option kind, Options.scan {} [] before ≠ .error (.missingValue option kind))
    (hfound : ∀ settings p, Options.parse (before ++ "all" :: after) = .ok ⟨.all, settings⟩ →
      settings.project s.machine = .ok p s.machine → ∀ t ∈ p.config.stageTools ++ p.config.imageTools, s.machine.hasTool t.1 = true)
    (hkept : ∀ settings p, Options.parse (before ++ "all" :: after) = .ok ⟨.all, settings⟩ →
      settings.project s.machine = .ok p s.machine → (exitCode programs (before ++ "stage" :: after) s).1 = 0 →
        settings.Finds p s.machine (exitCode programs (before ++ "stage" :: after) s).2.machine) :
    exitCode programs (before ++ "all" :: after) s =
      if (exitCode programs (before ++ "stage" :: after) s).1 = 0 then
        exitCode programs (before ++ "image" :: after) (exitCode programs (before ++ "stage" :: after) s).2
      else exitCode programs (before ++ "stage" :: after) s := by
  rcases runs_around programs after s hbefore with ⟨f, hfails⟩ | ⟨settings, p, hparse, hproject⟩
  · have hstage := hfails .stage "stage" rfl
    rw [if_neg (by rw [exitCode_of_error hstage]; exact Nat.one_ne_zero)]
    exact exitCode_congr ((hfails .all "all" rfl).trans hstage.symm)
  have htools := hfound settings p (hparse .all "all" rfl) hproject
  have hall := runArguments_of_found programs (hparse .all "all" rfl) hproject fun t ht => htools t (Tool.mem_sorted.1 ht)
  have hstage := runArguments_of_found programs (hparse .stage "stage" rfl) hproject
    fun t ht => htools t (List.mem_append_left _ ht)
  change _ = (p.stage (p.toolchain programs) >>= fun _ => p.assemble (p.toolchain programs) >>= fun _ => pure ()) s at hall
  change _ = (p.stage (p.toolchain programs) >>= fun _ => pure ()) s at hstage
  cases h : p.stage (p.toolchain programs) s with
  | error f s₁ =>
    rw [bind_of_error h] at hall hstage
    rw [if_neg (by rw [exitCode_of_error hstage]; exact Nat.one_ne_zero)]
    exact exitCode_congr (hall.trans hstage.symm)
  | ok report s₁ =>
    rw [bind_of_ok h] at hall hstage
    have hstaged := exitCode_of_ok hstage
    have hkept := hkept settings p (hparse .all "all" rfl) hproject
    rw [hstaged] at hkept ⊢
    obtain ⟨htext, himage⟩ := hkept rfl
    rw [if_pos rfl]
    have hcwd : s₁.machine.cwd = s.machine.cwd := congrArg (·.1) ((p.leaves_stage programs).of_ok h)
    have himaged := runArguments_of_found programs (hparse .image "image" rfl) (Settings.project_of_textAt hcwd htext hproject)
      fun t ht => (himage t ht).trans (htools t (List.mem_append_right _ ht))
    exact exitCode_congr (hall.trans himaged.symm)

end InTurn

/-- A run that stages asks for nothing that belongs to an assembly. -/
theorem Options.asks_stage (programs : Programs) (settings : Settings) :
    Asks (fun c => ¬ c.OfImage) (Options.run programs ⟨.stage, settings⟩) := by
  have hstage (p : Project) : Asks (fun c => ¬ c.OfImage) (Task.stage.perform programs p settings) := by
    refine (Task.asks_perform programs .stage p settings).mono fun c hc himage => ?_
    cases c with
    | compile name profile => exact himage
    | strip paths => exact himage
    | _ => exact hc
  exact .bind (.toRun _) fun p => .bind (.toRun _) fun _ => hstage p

/-- A run of both tasks is the runs of each, one after the other, if the staging leaves the configuration and the tools as they were. What
stands before the word for the task does not break off inside an option, which would take the word for its value. -/
theorem exitCode_all (programs : Programs) (before after : List String) (s : Session)
    (hbefore : ∀ option kind, Options.scan {} [] before ≠ .error (.missingValue option kind))
    (hfound : ∀ settings p, Options.parse (before ++ "all" :: after) = .ok ⟨.all, settings⟩ →
      settings.project s.machine = .ok p s.machine → ∀ t ∈ p.config.stageTools ++ p.config.imageTools, s.machine.hasTool t.1 = true)
    (hkept : ∀ settings p, Options.parse (before ++ "all" :: after) = .ok ⟨.all, settings⟩ →
      settings.project s.machine = .ok p s.machine → (exitCode programs (before ++ "stage" :: after) s).1 = 0 →
        settings.Finds p s.machine (exitCode programs (before ++ "stage" :: after) s).2.machine) :
    BothInTurn programs (IsAbout (before ++ "all" :: after) s) (fun word => exitCode programs (before ++ word :: after)) s := by
  have hturn := exitCode_inTurn hbefore hfound hkept
  obtain ⟨r, hparse⟩ := Options.parse_word hbefore after
  constructor
  case inTurn => exact hturn
  case exits =>
    rw [hturn]
    split
    · next h => exact ⟨fun h' => ⟨h, h'⟩, And.right⟩
    · next h => exact iff_of_false h fun h' => h h'.1
  case cutOff =>
    intro h
    obtain ⟨err, hend⟩ := endOf_exitCode programs (before ++ "stage" :: after) s
    have hasks : Asks (fun c => ¬ c.OfImage) (runArguments programs (before ++ "stage" :: after)) := by
      unfold runArguments
      rw [hparse .stage "stage" rfl]
      cases r with
      | error e => exact .fail _
      | ok settings => exact Options.asks_stage programs settings
    refine ⟨hturn.trans (if_neg h), ?_⟩
    rw [hturn, if_neg h, hend]
    exact hasks s
  case unassembled =>
    rintro hw p e s' ⟨settings, hall, hproject⟩ hfails
    refine ⟨?_, Project.course_of_stage_error hw hfails⟩
    have hends : runArguments programs (before ++ "all" :: after) s = .error e s' :=
      (runArguments_of_found programs hall hproject fun t ht => hfound settings p hall hproject t (Tool.mem_sorted.1 ht)).trans
        (bind_of_error hfails)
    unfold exitCode
    rw [hends]
  case later =>
    intro hblind h clock
    have hlike (s₁ : Session) : s₁.Like Tree.SameButTimes (s₁.atTime clock) := ⟨⟨rfl, rfl, rfl, rfl, rfl⟩, rfl⟩
    have hagreed (s₁ : Session) : Agreed (Session.Like Tree.SameButTimes) Eq (runArguments programs (before ++ "image" :: after) s₁)
        (runArguments programs (before ++ "image" :: after) (s₁.atTime clock)) := by
      unfold runArguments
      rw [hparse .image "image" rfl]
      cases r with
      | error e => exact .error (hlike s₁)
      | ok settings => exact Options.agree_image hblind settings _ _ (hlike s₁)
    rw [hturn, if_pos h]
    exact exitCode_of_agreed (hagreed _)
  case restaged =>
    intro clock
    refine exitCode_of_agreed ?_
    have hlike : s.Like Eq (s.atTime clock) := ⟨⟨rfl, rfl, rfl, rfl, rfl⟩, rfl⟩
    unfold runArguments
    rw [hparse .stage "stage" rfl]
    cases r with
    | error e => exact .error (hlike.mono Or.inl)
    | ok settings =>
      have hstage := Options.agreed_stage programs settings hlike
      rw [show (s.atTime clock).machine.clock = clock from rfl] at hstage
      exact hstage

/-- A session on a machine with the tools of both tasks, a program to stage, and all builds there already. -/
def sampleBuilt (more : List (Place × Node)) : Session where
  machine :=
    { tree := ⟨[(["bin"], .directory), (["cargo", "bin"], .file ⟨.empty, 0o755, 0⟩), (["strip", "bin"], .file ⟨.empty, 0o755, 0⟩),
        (["cargo-bootimage", "bin"], .file ⟨.empty, 0o755, 0⟩), (["src"], .directory), (["lib.rs", "src"], .file (.new newFileMode)),
        (["bin", "src"], .directory), (["a.rs", "bin", "src"], .file (.new newFileMode)), (["target"], .directory),
        (["x86_64-syskrnl", "target"], .directory), (["release", "x86_64-syskrnl", "target"], .directory),
        (["a", "release", "x86_64-syskrnl", "target"], .file ⟨.ofList [1], 0o755, 0⟩),
        (["bootimage-syskrnl.bin", "release", "x86_64-syskrnl", "target"], .file ⟨.ofList [2], newFileMode, 0⟩)] ++ more⟩,
      cwd := [], searchPath := "/bin", home := ⟨""⟩, clock := 7 }

theorem exitCode_all_sampleBuilt :
    Programs.idle.Respect Tree.SameButTimes ∧ (exitCode .idle ["stage"] (sampleBuilt [])).1 = 0 ∧
      BothInTurn .idle (IsAbout ["all"] (sampleBuilt [])) (fun word => exitCode .idle [word]) (sampleBuilt []) := by
  have hparsed : Options.parse ["all"] = .ok ⟨.all, {}⟩ := rfl
  have hruns : Config.fileAt (Place.path []) none (sampleBuilt []).machine = none ∧
      (∀ t ∈ Project.stock.config.stageTools ++ Project.stock.config.imageTools, (sampleBuilt []).machine.hasTool t.1 = true) ∧
      (exitCode .idle ["stage"] (sampleBuilt [])).1 = 0 ∧
      Config.fileAt (Place.path []) none (exitCode .idle ["stage"] (sampleBuilt [])).2.machine = none ∧
      ∀ t ∈ Project.stock.config.imageTools,
        (exitCode .idle ["stage"] (sampleBuilt [])).2.machine.hasTool t.1 = (sampleBuilt []).machine.hasTool t.1 := by decide +kernel
  obtain ⟨hfile, htools, hends, hfile', htools'⟩ := hruns
  have hstock : Settings.project {} (sampleBuilt []).machine = .ok .stock (sampleBuilt []).machine := Settings.project_of_no_file rfl hfile
  refine ⟨fun _ _ _ _ ht => ⟨rfl, ht⟩, hends, exitCode_all .idle [] [] (sampleBuilt []) nofun ?_ ?_⟩
  · intro settings p hparse hproject
    cases hparsed.symm.trans hparse
    cases hstock.symm.trans hproject
    exact htools
  · intro settings p hparse hproject _
    cases hparsed.symm.trans hparse
    cases hstock.symm.trans hproject
    rw [List.nil_append]
    exact ⟨(Config.textAt_of_no_file hfile').trans (Config.textAt_of_no_file hfile).symm, htools'⟩

/-- A link by which the configuration is found only once the record of a staging has been made, and a configuration behind it that is at
fault. -/
def lateConfig : List (Place × Node) :=
  [(["kernel-image.toml"], .link ⟨"target/kernel-image-builder/../../late.toml"⟩),
    (["late.toml"], .file ⟨.ofList (Text.encode "[image]\ncapacity_mib = 0\n"), newFileMode, 0⟩)]

/-- It is not enough that programs and installs leave the configuration as it was: where the record of the staging does not, the run of both
tasks ends well, and the assembly after the staging does not. -/
theorem exitCode_lateConfig :
    (∀ c surroundings t, (Programs.idle c surroundings t).2 = t) ∧
      Settings.project {} (sampleBuilt lateConfig).machine = .ok .stock (sampleBuilt lateConfig).machine ∧
      (∀ t ∈ Project.stock.config.stageTools ++ Project.stock.config.imageTools, (sampleBuilt lateConfig).machine.hasTool t.1 = true) ∧
      Settings.Finds {} .stock (sampleBuilt lateConfig).machine (endOf (Staging.rebuild (Project.stock.toolchain .idle) .release
        Project.stock.config.userspace.sourceDir Project.stock.config.userspace.installDir (sampleBuilt lateConfig))).machine ∧
      (exitCode .idle ["stage"] (sampleBuilt lateConfig)).1 = 0 ∧
      (exitCode .idle ["image"] (exitCode .idle ["stage"] (sampleBuilt lateConfig)).2).1 = 1 ∧
      (exitCode .idle ["all"] (sampleBuilt lateConfig)).1 = 0 := by
  have hparse : Options.parse ["all"] = .ok ⟨.all, {}⟩ := rfl
  have hruns : Config.fileAt (Place.path []) none (sampleBuilt lateConfig).machine = none ∧
      (∀ t ∈ Project.stock.config.stageTools ++ Project.stock.config.imageTools,
        (sampleBuilt lateConfig).machine.hasTool t.1 = true) ∧
      Config.fileAt (Place.path []) none (endOf (Staging.rebuild (Project.stock.toolchain .idle) .release
        Project.stock.config.userspace.sourceDir Project.stock.config.userspace.installDir (sampleBuilt lateConfig))).machine = none ∧
      (∀ t ∈ Project.stock.config.imageTools, (endOf (Staging.rebuild (Project.stock.toolchain .idle) .release
        Project.stock.config.userspace.sourceDir Project.stock.config.userspace.installDir
          (sampleBuilt lateConfig))).machine.hasTool t.1 = (sampleBuilt lateConfig).machine.hasTool t.1) ∧
      (exitCode .idle ["stage"] (sampleBuilt lateConfig)).1 = 0 ∧
      (exitCode .idle ["image"] (exitCode .idle ["stage"] (sampleBuilt lateConfig)).2).1 = 1 := by decide +kernel
  obtain ⟨hfile, htools, hfile', htools', hstages, hfails⟩ := hruns
  have hproject : Settings.project {} (sampleBuilt lateConfig).machine = .ok .stock (sampleBuilt lateConfig).machine :=
    Settings.project_of_no_file rfl hfile
  have htext := (Config.textAt_of_no_file hfile').trans (Config.textAt_of_no_file hfile).symm
  refine ⟨fun _ _ _ => rfl, hproject, htools, ⟨htext, htools'⟩, hstages, hfails, ?_⟩
  rw [exitCode_eq_zero_iff, runArguments_of_found .idle hparse hproject fun t ht => htools t (Tool.mem_sorted.1 ht)]
  decide +kernel

end BootDisk
