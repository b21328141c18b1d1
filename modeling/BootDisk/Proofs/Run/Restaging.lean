import BootDisk.Proofs.Run.Times

/-!
# A staging at another time

A staging takes from the clock nothing but the time that it puts on record. So at another time it starts the same programs and leaves the
same tree, but for the time in the manifest (`Manifest.SameButStamp`).
-/

namespace BootDisk

namespace Agree

variable {α : Type} {ε σ : Type}

/-- From one state work goes in one way. -/
theorem same (x : EStateM ε σ α) : Agree Eq Eq x x := by
  rintro s _ rfl
  cases x s with
  | ok a s' => exact .ok rfl rfl
  | error e s' => exact .error rfl

theorem sameFiles (call : Place → FileCall α) : Agree (Machine.Like Eq) Eq (Act.files call) (Act.files call) :=
  .files fun _ => .same _

theorem sameLook (question : Tree → Place → Except IoError α) :
    Agree (Machine.Like Eq) (fun a b => id a = id b) (Act.look question) (Act.look question) :=
  .look id fun _ _ _ ht => ht ▸ rfl

theorem sameHolds (question : Tree → Place → Bool) : Agree (Machine.Like Eq) Eq (Act.holds question) (Act.holds question) :=
  .holds fun _ _ _ ht => ht ▸ rfl

theorem sameRun (programs : Programs) (c : Command) : Agree (Machine.Like Eq) Eq (c.run programs) (c.run programs) :=
  .run (fun _ _ _ _ ht => ht ▸ ⟨rfl, rfl⟩) c

end Agree

namespace Install

theorem agree_removeLink (path : Path) : Agree (Machine.Like Eq) Eq (removeLink path) (removeLink path) := by
  unfold removeLink
  refine .bind (.sameHolds _) fun b b' hb => ?_
  subst hb
  exact .ite (.during _ (.sameFiles _)) (.pure rfl)

theorem agree_placeholder (path : Path) : Agree (Machine.Like Eq) Eq (placeholder path) (placeholder path) :=
  .bind (agree_removeLink path) fun _ _ _ => .during _ (.bind (.sameFiles _) fun _ _ _ => .pure rfl)

theorem agree_copyIn (binary path : Path) : Agree (Machine.Like Eq) Eq (copyIn binary path) (copyIn binary path) := by
  unfold copyIn makeExecutable
  refine .bind (agree_removeLink path) fun _ _ _ => .bind (.during _ (.sameFiles _)) fun _ _ _ => .bind (.during _ (.sameLook _)) ?_
  rintro node _ rfl
  exact .during _ (.sameFiles _)

end Install

namespace Project

variable (programs : Programs) (p : Project)

theorem agree_compile (name : String) (profile : Profile) :
    Agree (Machine.Like Eq) Eq (p.compile programs name profile) (p.compile programs name profile) := by
  unfold compile
  exact .bind (.sameRun _ _) fun _ _ _ => .bind (agree_expectFile (fun _ _ _ ht => ht ▸ rfl) _) fun _ _ _ => .pure rfl

theorem agree_strip (paths : List Path) : Agree (Machine.Like Eq) Eq (p.strip programs paths) (p.strip programs paths) :=
  .ite (.pure rfl) (.sameRun _ _)

end Project

namespace Staging

variable (programs : Programs) (p : Project) (profile : Profile)

theorem agree_stageProgram (installDir : Path) (q : Program) :
    Agree (Session.Like Eq) Eq (stageProgram (p.toolchain programs) profile installDir q)
      (stageProgram (p.toolchain programs) profile installDir q) := by
  unfold stageProgram
  refine .bind (.lift (Install.agree_placeholder _)) fun _ _ _ => .bind (.lift (.print _)) fun _ _ _ => ?_
  refine .bind (.during _ (.call _ (p.agree_compile programs _ _))) ?_
  rintro binary _ rfl
  exact .bind (.lift (Install.agree_copyIn _ _)) fun _ _ _ => .pure rfl

theorem agree_strip (installed : List Installed) :
    Agree (Session.Like Eq) Eq (strip (p.toolchain programs) installed) (strip (p.toolchain programs) installed) :=
  .ite (.bind (.lift (.print _)) fun _ _ _ => .bind (.call _ (p.agree_strip programs _)) fun _ _ _ => .pure rfl)
    (.bind (.lift (.warn _)) fun _ _ _ => .pure rfl)

theorem agree_discover (sourceDir : Path) :
    Agree (Machine.Like Eq) Eq (Program.discover sourceDir) (Program.discover sourceDir) := by
  intro m m' hm
  unfold Program.discover
  rw [← hm.cwd, ← show m.tree = m'.tree from hm.tree]
  split
  · split
    · exact .error hm
    · split
      · exact .ok rfl hm
      · exact .error hm
  · exact .ok rfl hm

/-- A staging goes alike at any time. -/
theorem agree_rebuild (sourceDir installDir : Path) :
    Agree (Session.Like Eq) Eq (rebuild (p.toolchain programs) profile sourceDir installDir)
      (rebuild (p.toolchain programs) profile sourceDir installDir) := by
  unfold rebuild
  refine .bind (.toRun (agree_discover _)) ?_
  rintro row _ rfl
  refine .ite (.bind (.lift (.print _)) fun _ _ _ => .pure rfl) (.bind (.during _ (.toRun (.sameFiles _))) fun _ _ _ => ?_)
  refine .bind (.mapM (agree_stageProgram programs p profile installDir) row) ?_
  rintro installed _ rfl
  refine .bind (agree_strip programs p installed) ?_
  rintro stripped _ rfl
  exact .bind (.lift (.print _)) fun _ _ _ => .pure rfl

end Staging

namespace Manifest

/-- The bytes of a manifest that is put on record at a time. -/
def bytesAt (r : Manifest) (clock : Nat) : Content :=
  .ofList (Text.encode { r with createdAt := timestamp clock }.text)

/-- Trees that are the same, or differ in the time of a manifest only, which was put on record at one place in the same tree. -/
def SameButStamp (clock clock' : Nat) (t t' : Tree) : Prop :=
  t = t' ∨ ∃ (u : Tree) (place : Place) (node : Node) (r : Manifest),
    t = u.store place node (bytesAt r clock) ∧ t' = u.store place node (bytesAt r clock')

variable {m m' : Machine}

theorem agree_entryFor (i : Installed) : Agree (Machine.Like Eq) Eq (entryFor i) (entryFor i) := by
  unfold entryFor measure
  refine .bind (V := Eq) (.bind (.during _ (.sameLook _)) ?_) ?_
  · rintro node _ rfl
    refine .bind (.sameLook _) ?_
    rintro content _ rfl
    exact .pure rfl
  · rintro h _ rfl
    exact .pure rfl

/-- The manifests of a report differ in their times only. -/
theorem agreed_ofReport (r : StageReport) (hm : m.Like Eq m') :
    Agreed (Machine.Like Eq) (fun a a' => ∃ q : Manifest, a = { q with createdAt := timestamp m.clock } ∧
      a' = { q with createdAt := timestamp m'.clock }) (ofReport r m) (ofReport r m') := by
  have hleft := Leaves.mapM leaves_entryFor r.installed
  unfold ofReport
  refine (Agree.mapM agree_entryFor r.installed m m' hm).bind (fun _ _ h => h) ?_
  rintro es _ m₁ m₁' h h' rfl hm₁
  obtain rfl : m₁ = m := hleft.of_ok h
  obtain rfl : m₁' = m' := hleft.of_ok h'
  exact .ok ⟨⟨r.profile.name, "", r.stripped, es⟩, rfl, rfl⟩ hm₁

/-- A manifest is written at one place, whatever its time is. -/
theorem agreed_writeAll (cwd : Place) (path : Path) (r : Manifest) (clock clock' : Nat) {t t' : Tree} (ht : t = t') :
    Agreed (SameButStamp clock clock') Eq (FileCall.writeAll cwd path (bytesAt r clock) t)
      (FileCall.writeAll cwd path (bytesAt r clock') t') := by
  subst ht
  unfold FileCall.writeAll
  refine (Agree.same (FileCall.openCreate cwd path newFileMode) t t rfl).bind (fun _ _ => Or.inl) ?_
  rintro opened _ u _ - - rfl rfl
  exact .ok rfl (Or.inr ⟨u, opened.1, opened.2, r, rfl, rfl⟩)

/-- A report is put on record alike, but for the time. -/
theorem agreed_write (stateDir : Path) (r : StageReport) (hm : m.Like Eq m') :
    Agreed (Machine.Like (SameButStamp m.clock m'.clock)) Eq (write stateDir r m) (write stateDir r m') := by
  have hloose (m₁ m₁' : Machine) (h : m₁.Like Eq m₁') : m₁.Like (SameButStamp m.clock m'.clock) m₁' := h.mono Or.inl
  have hdirs : Agree (Machine.Like Eq) Eq
      (during (.creatingStateDir stateDir) (Act.files fun cwd => FileCall.makeDirectories cwd stateDir))
      (during (.creatingStateDir stateDir) (Act.files fun cwd => FileCall.makeDirectories cwd stateDir)) := .during _ (.sameFiles _)
  unfold write
  refine (agreed_ofReport r hm).bind hloose ?_
  rintro _ _ m₁ m₁' - - ⟨q, rfl, rfl⟩ hm₁
  refine (hdirs m₁ m₁' hm₁).bind hloose ?_
  rintro - - m₂ m₂' - - - hm₂
  have hwrite := agreed_writeAll m₂.cwd (pathIn stateDir) q m.clock m'.clock hm₂.tree
  exact ((Agreed.files hm₂ hwrite).during _).bind (fun _ _ h => h) fun _ _ _ _ _ _ _ hm₃ => .ok rfl hm₃

end Manifest

/-- A staging and its record go alike at any time, but for the time in the record. -/
theorem Project.agreed_stage (programs : Programs) (p : Project) {s s' : Session} (hs : s.Like Eq s') :
    Agreed (Session.Like (Manifest.SameButStamp s.machine.clock s'.machine.clock)) Eq (p.stage (p.toolchain programs) s)
      (p.stage (p.toolchain programs) s') := by
  have hleft := Staging.leaves_rebuild programs p p.profile p.config.userspace.sourceDir p.config.userspace.installDir
  unfold stage
  refine (Staging.agree_rebuild programs p p.profile _ _ s s' hs).bind (fun _ _ h => h.mono Or.inl) ?_
  rintro r _ s₁ s₁' h h' rfl hs₁
  have hclock : s₁.machine.clock = s.machine.clock := congrArg (·.2.2.2) (hleft.of_ok h)
  have hclock' : s₁'.machine.clock = s'.machine.clock := congrArg (·.2.2.2) (hleft.of_ok h')
  split
  · have hwrite := Manifest.agreed_write p.stateDir r hs₁.machine
    rw [hclock, hclock'] at hwrite
    refine (hwrite.toRun hs₁.calls).bind (fun _ _ h => h) ?_
    rintro path _ s₂ s₂' - - rfl hs₂
    exact Agree.bind (.lift (.print _)) (fun _ _ _ => .pure rfl) s₂ s₂' hs₂
  · exact .ok rfl (hs₁.mono Or.inl)

/-- A run that stages goes alike at any time, but for the time in the record. -/
theorem Options.agreed_stage (programs : Programs) (settings : Settings) {s s' : Session} (hs : s.Like Eq s') :
    Agreed (Session.Like (Manifest.SameButStamp s.machine.clock s'.machine.clock)) Eq (Options.run programs ⟨.stage, settings⟩ s)
      (Options.run programs ⟨.stage, settings⟩ s') := by
  have hT (t t' : Tree) (ht : t = t') : Tree.SameButTimes t t' := congrArg Tree.timeless ht
  have hloose (s₁ s₁' : Session) (h : s₁.Like Eq s₁') : s₁.Like (Manifest.SameButStamp s.machine.clock s'.machine.clock) s₁' :=
    h.mono Or.inl
  have hproject : Leaves (fun s : Session => id s.machine) settings.project.toRun := .toRun settings.endOf_project
  have hcheck (tools : List Tool) : Leaves (fun s : Session => id s.machine) (checkTools tools).toRun := .toRun (endOf_checkTools tools)
  unfold Options.run
  refine (Agree.toRun (settings.agree_project hT) s s' hs).bind hloose ?_
  rintro p _ s₁ s₁' h h' rfl hs₁
  refine (Agree.toRun (agree_checkTools hT (Task.stage.tools p.config)) s₁ s₁' hs₁).bind hloose ?_
  rintro _ _ s₂ s₂' hc hc' - hs₂
  have hclock : s₂.machine.clock = s.machine.clock := congrArg Machine.clock (((hcheck _).of_ok hc).trans (hproject.of_ok h))
  have hclock' : s₂'.machine.clock = s'.machine.clock := congrArg Machine.clock (((hcheck _).of_ok hc').trans (hproject.of_ok h'))
  have hstage := p.agreed_stage programs hs₂
  rw [hclock, hclock'] at hstage
  exact hstage.bind (fun _ _ h => h) fun _ _ _ _ _ _ _ hs₃ => .ok rfl hs₃

end BootDisk
