import BootDisk.Proofs.Container
import BootDisk.Proofs.Run.Unrecorded
import BootDisk.Proofs.Staging.Record

/-!
# What is on record after many stagings

Any number of stagings of one project, each with tools of its own, and with anything done to the machine before it. A staging that ends well
with something installed puts that on record; one that fails, or that finds no programs, leaves the record as it is. So the manifest that is
there in the end lists what the last one that was recorded has installed (`Project.manifest_history`), if nobody else puts a file in its
place (`Project.Undisturbed`).
-/

namespace BootDisk

/-- The file holds a manifest that says of a staging its profile, whether it has stripped, and the names and places of what it has installed,
in the same order. -/
def File.Records (f : File) (r : StageReport) : Prop :=
  ∃ text manifest, Text.decode? f.content.toList = some text ∧ Manifest.ofText text = .ok manifest ∧ manifest.profile = r.profile.name ∧
    manifest.stripped = r.stripped ∧ manifest.entries.map (fun e => ⟨e.name, e.path⟩) = r.installed

/-- What is put on record of a staging records it. -/
theorem Manifest.TrueOf.records {t : Tree} {cwd : Place} {r : StageReport} {manifest : Manifest} {f : File}
    (h : manifest.TrueOf t cwd r) (hf : f.content = .ofList (Text.encode manifest.text)) : f.Records r := by
  refine ⟨manifest.text, manifest, ?_, manifest.ofText_text, h.profile, h.stripped, ?_⟩
  · rw [hf, Content.toList_ofList, Text.decode?_encode]
  · have hentries := h.entries
    generalize r.installed = installed, manifest.entries = entries at hentries
    induction hentries with
    | nil => rfl
    | cons hi _ ih => exact congr (congrArg List.cons (congr (congrArg Installed.mk hi.name) hi.path)) ih

/-- A file records of one staging only what has been installed. -/
theorem File.Records.installed_eq {f : File} {r r' : StageReport} (h : f.Records r) (h' : f.Records r') : r'.installed = r.installed := by
  obtain ⟨text, manifest, htext, hread, -, -, hentries⟩ := h
  obtain ⟨text', manifest', htext', hread', -, -, hentries'⟩ := h'
  cases htext.symm.trans htext'
  cases hread.symm.trans hread'
  exact hentries'.symm.trans hentries

namespace Project

/-- There is no file at the one place now that was not at the other place before. -/
def NothingNew (q q' : Place) (m m' : Machine) : Prop :=
  ∀ f, m'.tree.node? q' = some (.file f) → m.tree.node? q = some (.file f)

/-- One of many stagings: what is done to the machine before it, and the tools that it has. -/
structure Turn where
  change : Session → Session
  tools : Toolchain

/-- The staging itself. -/
def Turn.run (p : Project) (turn : Turn) (s : Session) : EStateM.Result Failure Session StageReport :=
  p.stage turn.tools (turn.change s)

/-- The session after all stagings. -/
def after (p : Project) (turns : List Turn) (s : Session) : Session :=
  turns.foldl (fun s turn => endOf (turn.run p s)) s

/-- The report that a staging puts on record: it ends well, and anything is installed. -/
def recorded : EStateM.Result Failure Session StageReport → Option StageReport
  | .ok r _ => if r.installed = [] then none else some r
  | .error _ _ => none

/-- The reports that the stagings put on record, in order. -/
def reports (p : Project) : List Turn → Session → List StageReport
  | [], _ => []
  | turn :: rest, s => (recorded (turn.run p s)).toList ++ reports p rest (endOf (turn.run p s))

/-- A staging in which nobody else puts a file at the place: no tool does, and it is not an install path. When the staging is over, the path
of the manifest leads there, if it leads anywhere. -/
structure Quiet (p : Project) (tools : Toolchain) (q : Place) (s : Session) : Prop where
  names : s.machine.tree.WellNamed
  outside : ∀ s₁ ∈ s :: Staging.moments tools p.profile p.config.userspace.sourceDir p.config.userspace.installDir s,
    ∀ n ∈ Staging.foundNames p.config.userspace.sourceDir s.machine, ∀ d, s₁.machine.Reaches p.config.userspace.installDir d → q ≠ n :: d
  called : ∀ before s₁ s₂ after,
    s :: Staging.moments tools p.profile p.config.userspace.sourceDir p.config.userspace.installDir s = before ++ s₁ :: s₂ :: after →
    Staging.Called tools p.profile p.config.userspace.installDir (Staging.foundNames p.config.userspace.sourceDir s.machine) s₁ s₂ →
    NothingNew q q s₁.machine s₂.machine
  leads : ∀ q' n, (endOf (p.stage tools s)).machine.tree.entry (endOf (p.stage tools s)).machine.cwd (Manifest.pathIn p.stateDir) .through =
    .ok (q', n) → q' = q

/-- Nobody else writes the manifest, neither during the stagings nor before them. It may be kept at another place each time, if it is moved
there or there is none. -/
def Undisturbed (p : Project) : Place → List Turn → Session → Prop
  | _, [], _ => True
  | q, turn :: rest, s => ∃ q', NothingNew q q' s.machine (turn.change s).machine ∧ Quiet p turn.tools q' (turn.change s) ∧
      Undisturbed p q' rest (endOf (turn.run p s))

variable {p : Project} {tools : Toolchain} {q q' q'' : Place} {s s' : Session} {m m' m'' : Machine} {r : StageReport} {turns : List Turn}
variable {names : List String}

/-! ## One staging -/

theorem NothingNew.trans (h : NothingNew q q' m m') (h' : NothingNew q' q'' m' m'') : NothingNew q q'' m m'' :=
  fun f hf => h f (h' f hf)

theorem nothingNew_of_growsBy (h : m.tree.GrowsBy m'.tree) (q : Place) : NothingNew q q m m' := by
  intro f hf
  rcases h q with hsame | ⟨-, hdir⟩
  · exact hsame.symm.trans hf
  · cases hdir.symm.trans hf

/-- From one moment of a staging to the next, nothing new is at a place that is no install path, unless a tool puts it there. -/
theorem nothingNew_of_step {profile : Profile} {installDir : Path} (h : Staging.Step tools profile installDir names s s')
    (houtside : ∀ n ∈ names, ∀ d, s.machine.Reaches installDir d → q ≠ n :: d)
    (htools : Staging.Called tools profile installDir names s s' → NothingNew q q s.machine s'.machine) :
    NothingNew q q s.machine s'.machine := by
  cases h with
  | told htree =>
    intro f hf
    rwa [htree] at hf
  | called h => exact htools h
  | way _ _ h => exact nothingNew_of_growsBy h.growsBy q
  | entry n hn h =>
    intro f hf
    rcases h with htree | ⟨d, hd, hagree, -⟩
    · rwa [htree] at hf
    · rwa [hagree q (houtside n hn d hd)] at hf

/-- Installing programs brings nothing new to the place of the manifest. -/
theorem Quiet.rebuild (h : Quiet p tools q s) :
    NothingNew q q s.machine
      (endOf (Staging.rebuild tools p.profile p.config.userspace.sourceDir p.config.userspace.installDir s)).machine := by
  have hcourse := Staging.course_rebuild tools p.profile p.config.userspace.sourceDir p.config.userspace.installDir h.names
  refine hcourse.chained (P := fun s s' => NothingNew q q s.machine s'.machine) (fun _ _ hf => hf) (fun _ _ _ => NothingNew.trans) ?_
  intro before s₁ s₂ after hall hstep
  refine nothingNew_of_step hstep (h.outside s₁ ?_) (h.called before s₁ s₂ after hall)
  rw [hall]
  exact List.mem_append_right _ List.mem_cons_self

/-- A staging that is not put on record brings nothing new to the place of the manifest. -/
theorem Quiet.of_unrecorded (h : Quiet p tools q s) (hnone : recorded (p.stage tools s) = none) :
    NothingNew q q s.machine (endOf (p.stage tools s)).machine := by
  have hinstalled := h.rebuild
  have houtcome := p.stage_outcome tools s
  generalize p.stage tools s = result at houtcome hnone ⊢
  cases houtcome with
  | failed hrebuild => rwa [hrebuild] at hinstalled
  | idle hrebuild _ => rwa [hrebuild] at hinstalled
  | unrecorded hrebuild _ hwrite =>
    rw [hrebuild] at hinstalled
    exact hinstalled.trans (nothingNew_of_growsBy (Manifest.growsAlong_of_write_error hwrite).growsBy q)
  | recorded _ hne _ _ =>
    rw [recorded, if_neg hne] at hnone
    cases hnone

theorem recorded_eq_some {result : EStateM.Result Failure Session StageReport} :
    recorded result = some r ↔ ∃ s', result = .ok r s' ∧ r.installed ≠ [] := by
  cases result with
  | error e s' => exact ⟨nofun, fun ⟨_, h, _⟩ => nomatch h⟩
  | ok r' s' =>
    rw [recorded]
    constructor
    · intro h
      split at h
      · cases h
      · next hne =>
        cases h
        exact ⟨s', rfl, hne⟩
    · rintro ⟨_, h, hne⟩
      cases h
      exact if_neg hne

/-- What a staging puts on record is at the end of the manifest's path, unless a device is there. -/
theorem file_of_recorded (h : recorded (p.stage tools s) = some r) :
    ∃ q n, (endOf (p.stage tools s)).machine.tree.entry (endOf (p.stage tools s)).machine.cwd (Manifest.pathIn p.stateDir) .through =
      .ok (q, n) ∧ (n = .device ∨ ∃ f, n = .file f ∧ f.Records r) := by
  obtain ⟨s', hstage, hne⟩ := recorded_eq_some.1 h
  obtain ⟨m, m', path, hwrite, htree, hcwd⟩ := write_of_stage hstage hne
  obtain ⟨hcwd', manifest, t, htrue, -, hwritten⟩ := Manifest.write_ok hwrite
  rw [hstage, endOf_ok, htree, hcwd, hcwd']
  obtain ⟨q, -, -, ⟨f, hcontent, hfile⟩ | ⟨hsame, hdevice⟩⟩ := FileCall.writeAll_ok hwritten
  · exact ⟨q, _, hfile, Or.inr ⟨f, rfl, htrue.records hcontent⟩⟩
  · rw [hsame]
    exact ⟨q, _, hdevice, Or.inl rfl⟩

/-- What is at the place of the manifest after a staging that is put on record, if it is a file, records it. -/
theorem Quiet.of_recorded (h : Quiet p tools q s) (hsome : recorded (p.stage tools s) = some r) {f : File}
    (hf : (endOf (p.stage tools s)).machine.tree.node? q = some (.file f)) : f.Records r := by
  obtain ⟨q', n, hentry, hn⟩ := file_of_recorded hsome
  obtain rfl := h.leads q' n hentry
  generalize (endOf (p.stage tools s)).machine = m at hentry hf
  rcases hn with rfl | ⟨g, rfl, hrecords⟩
  · obtain ⟨slash, harr, -⟩ := Tree.entry_eq_ok.1 hentry
    have hnode : m.tree.node? q' = some .device := (Tree.node?_of_arrive harr nofun).1
    cases hnode.symm.trans hf
  · cases (Tree.node?_of_entry hentry).1.symm.trans hf
    exact hrecords

/-! ## Any number of stagings -/

/-- The place of the manifest, once there is anything on record: the path leads there, if it leads anywhere, and a file that is there records
the last of the reports. -/
structure Kept (p : Project) (reports : List StageReport) (q : Place) (m : Machine) : Prop where
  leads : reports ≠ [] → ∀ q' n, m.tree.entry m.cwd (Manifest.pathIn p.stateDir) .through = .ok (q', n) → q' = q
  records : ∀ r, reports.getLast? = some r → ∀ f, m.tree.node? q = some (.file f) → f.Records r

/-- A staging keeps the record. -/
theorem Kept.run {done : List StageReport} {turn : Turn} (h : Kept p done q s.machine)
    (hchange : NothingNew q q' s.machine (turn.change s).machine) (hquiet : Quiet p turn.tools q' (turn.change s)) :
    Kept p (done ++ (recorded (turn.run p s)).toList) q' (endOf (turn.run p s)).machine := by
  refine ⟨fun _ => hquiet.leads, fun r hr f hf => ?_⟩
  cases hrec : recorded (turn.run p s) with
  | none =>
    rw [hrec, Option.toList_none, List.append_nil] at hr
    exact h.records r hr f (hchange f (hquiet.of_unrecorded hrec f hf))
  | some r' =>
    rw [hrec, Option.toList_some, List.getLast?_concat] at hr
    cases hr
    exact hquiet.of_recorded hrec hf

/-- So do all of them. -/
theorem Kept.after {done : List StageReport} (h : Kept p done q s.machine) (hu : Undisturbed p q turns s) :
    ∃ q', Kept p (done ++ reports p turns s) q' (after p turns s).machine := by
  induction turns generalizing s q done with
  | nil =>
    rw [reports, List.append_nil]
    exact ⟨q, h⟩
  | cons turn rest ih =>
    obtain ⟨q', hchange, hquiet, hrest⟩ := hu
    rw [reports, ← List.append_assoc]
    exact ih (h.run hchange hquiet) hrest

theorem after_concat (p : Project) (turns : List Turn) (turn : Turn) (s : Session) :
    after p (turns ++ [turn]) s = endOf (turn.run p (after p turns s)) := by
  rw [after, List.foldl_append]
  rfl

/-- A staging that ends well with nothing installed has left the tree as it was. -/
theorem tree_of_none_installed (h : p.stage tools s = .ok r s') (hnil : r.installed = []) : s'.machine.tree = s.machine.tree := by
  have houtcome := p.stage_outcome tools s
  rw [h] at houtcome
  cases houtcome with
  | idle hrebuild _ =>
    obtain ⟨programs, -, ⟨-, -, ha⟩ | ⟨hne, s₀, installed, s₂, stripped, s₃, -, hmap, -, -, rfl⟩⟩ := Staging.rebuild_ok hrebuild
    · exact ha.1
    · rw [Staging.installed_of_mapM hmap] at hnil
      exact absurd (List.map_eq_nil_iff.1 hnil) hne
  | recorded _ hne _ _ => exact absurd hnil hne

/-- Nobody disturbs the first of many stagings that nobody disturbs. -/
theorem Undisturbed.left {rest : List Turn} (h : Undisturbed p q (turns ++ rest) s) : Undisturbed p q turns s := by
  induction turns generalizing q s with
  | nil => trivial
  | cons turn turns ih =>
    obtain ⟨q', hchange, hquiet, hrest⟩ := h
    exact ⟨q', hchange, hquiet, ih hrest⟩

/-- The manifest in a row of stagings that nobody disturbs, as it is after each of them. If there is a file where its path leads, it lists
what the last recorded one so far has installed, in the same order, with its profile and whether it has stripped; a staging is recorded if
it ends well and has installed anything. When one has just been recorded, there is a file, unless the path leads to a device; and one that
ends well with nothing installed leaves the tree as it is. -/
theorem manifest_history (p : Project) (q : Place) (turns : List Turn) (s : Session) (hu : Undisturbed p q turns s) :
    ∀ done turn rest, turns = done ++ turn :: rest →
      (∀ r, (reports p (done ++ [turn]) s).getLast? = some r →
        ∀ q' f, (after p (done ++ [turn]) s).machine.file? (Manifest.pathIn p.stateDir) = some (q', f) → f.Records r) ∧
      (∀ r, recorded (turn.run p (after p done s)) = some r →
        Manifest.OnDevice (after p (done ++ [turn]) s).machine.tree (after p (done ++ [turn]) s).machine.cwd p.stateDir ∨
          ∃ q' f, (after p (done ++ [turn]) s).machine.file? (Manifest.pathIn p.stateDir) = some (q', f)) ∧
      ∀ r s', turn.run p (after p done s) = .ok r s' → r.installed = [] →
        s'.machine.tree = (turn.change (after p done s)).machine.tree := by
  rintro done turn rest rfl
  refine ⟨fun r hr q' f hfile => ?_, fun r hrec => ?_, fun r s' => tree_of_none_installed⟩
  · have hstart : Kept p [] q s.machine := ⟨fun hne => absurd rfl hne, nofun⟩
    rw [List.append_cons] at hu
    obtain ⟨q'', hleads, hrecords⟩ := hstart.after hu.left
    rw [List.nil_append] at hleads hrecords
    have hentry := Machine.file?_eq_some.1 hfile
    have hne : reports p (done ++ [turn]) s ≠ [] := by
      intro hnil
      rw [hnil] at hr
      cases hr
    obtain rfl := hleads hne q' _ hentry
    exact hrecords r hr f (Tree.node?_of_entry hentry).1
  · obtain ⟨q', n, hentry, hn⟩ := file_of_recorded hrec
    rw [after_concat]
    rcases hn with rfl | ⟨f, rfl, -⟩
    · exact Or.inl ⟨q', hentry⟩
    · exact Or.inr ⟨q', f, Machine.file?_eq_some.2 hentry⟩

/-! ### A staging of nothing -/

/-- Where the manifest of the small project is kept. -/
def smallPlace : Place :=
  ["stage-manifest.json", "kernel-image-builder", "out"]

/-- What can be seen of a staging: the names of the tree are well-formed, no program has the name of the manifest, and the path of the
manifest leads to it in the end. -/
def LooksQuiet (p : Project) (tools : Toolchain) (q : Place) (s : Session) : Prop :=
  s.machine.tree.WellNamed ∧ (∀ n ∈ Staging.foundNames p.config.userspace.sourceDir s.machine, q.head? ≠ some n) ∧
    ((endOf (p.stage tools s)).machine.tree.entry (endOf (p.stage tools s)).machine.cwd (Manifest.pathIn p.stateDir)
      .through).toOption.map Prod.fst = some q

instance (p : Project) (tools : Toolchain) (q : Place) (s : Session) : Decidable (LooksQuiet p tools q s) :=
  inferInstanceAs (Decidable (_ ∧ _ ∧ _))

/-- Tools that leave the tree as it is disturb nobody, if no program has the name of the manifest. -/
theorem LooksQuiet.quiet (h : LooksQuiet p tools q s) (hstill : ∀ n profile m, (endOf (tools.compile n profile m)).tree = m.tree)
    (hstill' : ∀ paths m, (endOf (tools.strip paths m)).tree = m.tree) : Quiet p tools q s := by
  obtain ⟨hw, hnames, hleads⟩ := h
  refine ⟨hw, fun s₁ _ n hn d _ heq => hnames n hn (by rw [heq]; rfl), fun _ s₁ s₂ _ _ hcalled f hf => ?_, fun q' n hentry => ?_⟩
  · cases hcalled with
    | compile n _ hm => rwa [hm, hstill] at hf
    | strip hm => rwa [hm, hstill'] at hf
  · rw [hentry] at hleads
    exact Option.some.inj hleads

/-- A staging with everything as it is. -/
def plainTurn : Turn :=
  ⟨id, .idle ⟨"built"⟩⟩

/-- A staging with tools that fail. -/
def failingTurn : Turn :=
  ⟨id, .failing⟩

/-- A staging after the only source has been taken away. -/
def emptyTurn : Turn :=
  ⟨fun s => { s with machine := { s.machine with tree := s.machine.tree.erase ["a.rs", "src"] } }, .idle ⟨"built"⟩⟩

/-- A session with one program to stage, and no manifest but an empty file. -/
def sampleUnstaged : Session :=
  sampleRecorded (.file (.new newFileMode))

theorem nothingNew_emptyTurn (s : Session) : NothingNew smallPlace smallPlace s.machine (emptyTurn.change s).machine := by
  intro f hf
  rwa [emptyTurn, Tree.node?_erase_of_ne s.machine.tree (by decide)] at hf

/-- What a staging with everything as it is, one that fails, and one that finds nothing come to, all told by one run of them: only the first
has installed anything, and a manifest is there in the end. -/
theorem mixed_comes_to :
    LooksQuiet small plainTurn.tools smallPlace (plainTurn.change sampleUnstaged) ∧
      LooksQuiet small failingTurn.tools smallPlace (failingTurn.change (after small [plainTurn] sampleUnstaged)) ∧
      LooksQuiet small emptyTurn.tools smallPlace (emptyTurn.change (after small [plainTurn, failingTurn] sampleUnstaged)) ∧
      (reports small [plainTurn, failingTurn, emptyTurn] sampleUnstaged).map StageReport.installed = [[⟨"a", ⟨"inst/a"⟩⟩]] ∧
      (valueOf (emptyTurn.run small (after small [plainTurn, failingTurn] sampleUnstaged))).map StageReport.installed = some [] ∧
      ((after small [plainTurn, failingTurn, emptyTurn] sampleUnstaged).machine.file? (Manifest.pathIn small.stateDir)).isSome = true := by
  decide +kernel

theorem undisturbed_mixed : Undisturbed small smallPlace [plainTurn, failingTurn, emptyTurn] sampleUnstaged := by
  obtain ⟨hplain, hfailing, hempty, -⟩ := mixed_comes_to
  refine ⟨smallPlace, fun _ hf => hf, ?_, smallPlace, fun _ hf => hf, ?_, smallPlace, nothingNew_emptyTurn _, ?_, trivial⟩
  · exact hplain.quiet (fun _ _ _ => rfl) fun _ _ => rfl
  · exact hfailing.quiet (fun _ _ _ => rfl) fun _ _ => rfl
  · exact hempty.quiet (fun _ _ _ => rfl) fun _ _ => rfl

/-- After all three the manifest records the first, which is the only one that is recorded. -/
theorem manifest_history_mixed :
    Undisturbed small smallPlace [plainTurn, failingTurn, emptyTurn] sampleUnstaged ∧
      ∃ r q f, (reports small [plainTurn, failingTurn, emptyTurn] sampleUnstaged).getLast? = some r ∧ r.installed = [⟨"a", ⟨"inst/a"⟩⟩] ∧
        (after small [plainTurn, failingTurn, emptyTurn] sampleUnstaged).machine.file? (Manifest.pathIn small.stateDir) = some (q, f) ∧
        f.Records r := by
  obtain ⟨-, -, -, hreports, -, hfile⟩ := mixed_comes_to
  obtain ⟨r, hr, hinstalled⟩ := List.map_eq_singleton_iff.1 hreports
  obtain ⟨⟨q, f⟩, hfile⟩ := Option.isSome_iff_exists.1 hfile
  have hlast : (reports small [plainTurn, failingTurn, emptyTurn] sampleUnstaged).getLast? = some r := by
    rw [hr]
    rfl
  obtain ⟨hrecords, -, -⟩ := manifest_history small smallPlace [plainTurn, failingTurn, emptyTurn] sampleUnstaged undisturbed_mixed
    [plainTurn, failingTurn] emptyTurn [] rfl
  exact ⟨undisturbed_mixed, r, q, f, hlast, hinstalled, hfile, hrecords r hlast q f hfile⟩

/-- The manifest does not always tell of the last staging that has ended well: when that one has found no programs, the manifest lists what
was installed before, though nothing was installed by it. -/
theorem manifest_after_nothing :
    Undisturbed small smallPlace [plainTurn, failingTurn, emptyTurn] sampleUnstaged ∧
      ∃ r s' q f, emptyTurn.run small (after small [plainTurn, failingTurn] sampleUnstaged) = .ok r s' ∧ r.installed = [] ∧
        s'.machine.file? (Manifest.pathIn small.stateDir) = some (q, f) ∧ ¬ f.Records r := by
  obtain ⟨-, -, -, hreports, hempty, hfile⟩ := mixed_comes_to
  obtain ⟨first, hfirst, hinstalled⟩ := List.map_eq_singleton_iff.1 hreports
  obtain ⟨⟨q, f⟩, hfile⟩ := Option.isSome_iff_exists.1 hfile
  obtain ⟨r, hrun, hnil⟩ := exists_of_valueOf hempty
  have hstart : Kept small [] smallPlace sampleUnstaged.machine := ⟨fun hne => absurd rfl hne, nofun⟩
  obtain ⟨q', hleads, hrecords⟩ := hstart.after undisturbed_mixed
  rw [List.nil_append, hfirst] at hleads hrecords
  have hentry := Machine.file?_eq_some.1 hfile
  obtain rfl := hleads (List.cons_ne_nil _ _) q _ hentry
  have hf := hrecords first rfl f (Tree.node?_of_entry hentry).1
  have hend : after small [plainTurn, failingTurn, emptyTurn] sampleUnstaged =
      endOf (emptyTurn.run small (after small [plainTurn, failingTurn] sampleUnstaged)) :=
    after_concat small [plainTurn, failingTurn] emptyTurn sampleUnstaged
  rw [hend] at hfile
  refine ⟨undisturbed_mixed, r, _, q, f, hrun, hnil, hfile, fun hrec => ?_⟩
  have hsame := hf.installed_eq hrec
  rw [hnil, hinstalled] at hsame
  cases hsame

end Project

end BootDisk
