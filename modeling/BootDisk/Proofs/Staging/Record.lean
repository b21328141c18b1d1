import BootDisk.Proofs.Digest
import BootDisk.Proofs.FileTree.Growth
import BootDisk.Proofs.FileTree.Writing
import BootDisk.Proofs.Run.Children
import BootDisk.Proofs.Staging.Manifest
import BootDisk.Proofs.Text.Utf8

/-!
# What is on record is so

A staging that ends well has put on record what is installed in the end: the manifest reads back, and each of its entries has the size and
the digest of the bytes that are at the install path then, whatever was on record before (`Project.stage_records`). Where an installed
file cannot be read, nothing is changed.
-/

namespace BootDisk

/-- An entry says what is so of an installed program: its name, its place, and the size and the digest of the bytes that are there. -/
structure Installed.RecordedAs (t : Tree) (cwd : Place) (i : Installed) (e : ManifestEntry) : Prop where
  name : e.name = i.name
  path : e.path = i.path
  bytes : ∃ content, t.readAll cwd i.path = .ok content ∧ (content.length ≤ maxFileLength → e.size.toNat = content.length) ∧
    e.sha256 = Sha256.hexText (Sha256.digest content.toList)
  digits : e.sha256.toList.length = 64 ∧ ∀ c ∈ e.sha256.toList, Sha256.isHexDigit c = true

namespace Manifest

/-- A manifest says what is so of a staging: its profile, whether it has stripped, and what it has installed, in the same order. -/
structure TrueOf (t : Tree) (cwd : Place) (r : StageReport) (manifest : Manifest) : Prop where
  profile : manifest.profile = r.profile.name
  stripped : manifest.stripped = r.stripped
  entries : List.Forall₂ (Installed.RecordedAs t cwd) r.installed manifest.entries

/-- A file is at the place of the manifest, and it reads back as this one. -/
def ReadsBack (t : Tree) (cwd : Place) (stateDir : Path) (manifest : Manifest) : Prop :=
  t.isFile cwd (pathIn stateDir) = true ∧ ∃ text, t.readText cwd (pathIn stateDir) = .ok text ∧ ofText text = .ok manifest

/-- The manifest is outside of what is installed: no install path leads to where its own path does. -/
def Outside (t : Tree) (cwd : Place) (stateDir : Path) (r : StageReport) : Prop :=
  ∀ i ∈ r.installed, ∀ place n n', t.entry cwd i.path .through = .ok (place, n) → t.entry cwd (pathIn stateDir) .through ≠ .ok (place, n')

/-- The path of the manifest leads to a device. -/
def OnDevice (t : Tree) (cwd : Place) (stateDir : Path) : Prop :=
  ∃ place, t.entry cwd (pathIn stateDir) .through = .ok (place, .device)

variable {m m' : Machine} {i : Installed} {e : ManifestEntry} {r : StageReport} {manifest : Manifest} {stateDir path : Path}

/-! ## Taking the measure of what is installed -/

/-- What is measured is the bytes that are at the path, read to their end. -/
theorem measure_ok {h : Sha256.Hasher} (hmeasure : measure path m = .ok h m') :
    m' = m ∧ ∃ content, m.tree.readAll m.cwd path = .ok content ∧ h = .of content.toList := by
  obtain ⟨n, m₁, hstat, hrest⟩ := bind_eq_ok.1 hmeasure
  obtain ⟨hn, rfl⟩ := Act.look_eq_ok.1 (during_eq_ok.1 hstat)
  obtain ⟨content, m₂, hread, hpure⟩ := bind_eq_ok.1 hrest
  obtain ⟨hcontent, rfl⟩ := Act.look_eq_ok.1 hread
  cases hpure
  refine ⟨rfl, content, ExceptAux.bind_eq_ok.2 ⟨n, hn, hcontent⟩, ?_⟩
  rw [Sha256.Hasher.ofPieces_eq, Sha256.flatten_reads]

theorem entryFor_ok (h : entryFor i m = .ok e m') : m' = m ∧ i.RecordedAs m.tree m.cwd e := by
  obtain ⟨hasher, m₁, hmeasure, hpure⟩ := bind_eq_ok.1 h
  obtain ⟨rfl, content, hread, rfl⟩ := measure_ok hmeasure
  cases hpure
  have hdigits := Sha256.hexText_digits (Sha256.digest content.toList)
  rw [Sha256.length_digest, ← Sha256.Hasher.finish_of] at hdigits
  refine ⟨rfl, rfl, rfl, ⟨content, hread, ?_, by rw [Sha256.Hasher.finish_of]⟩, hdigits⟩
  intro hlength
  change (UInt64.ofNat content.toList.length).toNat = content.length
  rw [Content.length_toList, UInt64.toNat_ofNat_of_lt' (Nat.lt_of_le_of_lt hlength (by decide))]

/-- The entries are taken one program after the other, in the order of the report. -/
theorem entries_ok {installed : List Installed} {entries : List ManifestEntry} (h : installed.mapM entryFor m = .ok entries m') :
    m' = m ∧ List.Forall₂ (Installed.RecordedAs m.tree m.cwd) installed entries := by
  induction installed generalizing entries with
  | nil =>
    rw [List.mapM_nil, pure_run] at h
    cases h
    exact ⟨rfl, .nil⟩
  | cons i installed ih =>
    obtain ⟨e, m₁, rest, hfirst, hrest, rfl⟩ := mapM_cons_eq_ok.1 h
    obtain ⟨rfl, he⟩ := entryFor_ok hfirst
    obtain ⟨rfl, hentries⟩ := ih hrest
    exact ⟨rfl, .cons he hentries⟩

theorem ofReport_ok (h : ofReport r m = .ok manifest m') : m' = m ∧ manifest.TrueOf m.tree m.cwd r := by
  obtain ⟨entries, m₁, hentries, hrest⟩ := bind_eq_ok.1 h
  obtain ⟨rfl, htrue⟩ := entries_ok hentries
  cases hrest
  exact ⟨rfl, rfl, rfl, htrue⟩

/-- Where an installed file cannot be read, no manifest is made, and nothing is changed. -/
theorem write_of_unreadable (stateDir : Path) (h : ∃ i ∈ r.installed, ∀ content, m.tree.readAll m.cwd i.path ≠ .ok content) :
    ∃ f, write stateDir r m = .error f m := by
  obtain ⟨i, hi, hunreadable⟩ := h
  cases hreport : ofReport r m with
  | ok manifest m₁ =>
    obtain ⟨rfl, htrue⟩ := ofReport_ok hreport
    have hreadable : ∀ i ∈ r.installed, ∃ content, m₁.tree.readAll m₁.cwd i.path = .ok content :=
      ((List.forall₂_and_left r.installed manifest.entries).1 (htrue.entries.imp fun i e he => ⟨he.bytes.imp fun _ h => h.1, he⟩)).1
    obtain ⟨content, hcontent⟩ := hreadable i hi
    exact absurd hcontent (hunreadable content)
  | error f m₁ =>
    obtain rfl : m₁ = m := (leaves_ofReport r).of_error hreport
    exact ⟨f, bind_of_error hreport⟩

/-! ## Putting it on record -/

/-- A manifest that is put on record is that of the report, and it is written once the directories on the way are there. -/
theorem write_ok (h : write stateDir r m = .ok path m') :
    m'.cwd = m.cwd ∧ ∃ (manifest : Manifest) (t : Tree), manifest.TrueOf m.tree m.cwd r ∧ m.tree.GrowsAlong t m.cwd stateDir ∧
      FileCall.writeAll m.cwd (pathIn stateDir) (.ofList (Text.encode manifest.text)) t = .ok () m'.tree := by
  obtain ⟨manifest, m₁, hreport, hrest⟩ := bind_eq_ok.1 h
  obtain ⟨rfl, htrue⟩ := ofReport_ok hreport
  obtain ⟨_, m₂, hmake, hrest⟩ := bind_eq_ok.1 hrest
  obtain ⟨t, hmade, rfl⟩ := (Act.files_eq_ok (FileCall.makeDirectories · stateDir)).1 (during_eq_ok.1 hmake)
  obtain ⟨_, m₃, hwrite, hpure⟩ := bind_eq_ok.1 hrest
  obtain ⟨t', hwritten, rfl⟩ := (Act.files_eq_ok (FileCall.writeAll · (pathIn stateDir) _)).1 (during_eq_ok.1 hwrite)
  cases hpure
  have hgrown := FileCall.growsAlong_makeDirectories m₁.cwd stateDir m₁.tree
  rw [hmade] at hgrown
  exact ⟨rfl, manifest, t, htrue, hgrown, hwritten⟩

/-- What is so of an installed program before the manifest is written is so after it, if it is written outside. -/
theorem Outside.recordedAs {t t' t'' : Tree} {cwd : Place} {content : Content} (houtside : Outside t'' cwd stateDir r)
    (hi : i ∈ r.installed) (h : i.RecordedAs t cwd e) (hgrown : t.GrowsBy t')
    (hwritten : FileCall.writeAll cwd (pathIn stateDir) content t' = .ok () t'') : i.RecordedAs t'' cwd e := by
  obtain ⟨found, hread, hrest⟩ := h.bytes
  obtain ⟨place, n, hentry, hn⟩ := Tree.readAll_eq_ok.1 hread
  have hentry' := Tree.entry_of_growsBy hgrown hentry
  refine ⟨h.name, h.path, ⟨found, ?_, hrest⟩, h.digits⟩
  obtain ⟨q, hend, hagree, ⟨f, -, hfile⟩ | ⟨rfl, -⟩⟩ := FileCall.writeAll_ok hwritten
  · rcases Tree.entry_of_elsewhere hentry' hend hagree with hsame | hthere
    · rw [Tree.readAll_of_entry hsame, hn]
    · -- the program would be where the manifest is
      exact absurd hfile (houtside i hi q _ _ (hthere f (Tree.node?_of_entry hfile).1))
  · rw [Tree.readAll_of_entry hentry', hn]

/-- A manifest that is written where no device is reads back. -/
theorem readsBack_of_writeAll {t t' : Tree} {cwd : Place} (manifest : Manifest)
    (hdevice : ¬ OnDevice t' cwd stateDir)
    (h : FileCall.writeAll cwd (pathIn stateDir) (.ofList (Text.encode manifest.text)) t = .ok () t') :
    ReadsBack t' cwd stateDir manifest := by
  obtain ⟨q, -, -, ⟨f, hcontent, hfile⟩ | ⟨rfl, hthere⟩⟩ := FileCall.writeAll_ok h
  · refine ⟨?_, manifest.text, ?_, manifest.ofText_text⟩
    · rw [Tree.isFile, Tree.stat_of_entry hfile]
      rfl
    · have hread : t'.readAll cwd (pathIn stateDir) = .ok (.ofList (Text.encode manifest.text)) := by
        rw [Tree.readAll_of_entry hfile, ← hcontent]
        rfl
      rw [Tree.readText, hread]
      dsimp only
      rw [Content.toList_ofList, Text.decode?_encode]
  · exact absurd ⟨q, hthere⟩ hdevice

/-- A report that is put on record outside of what it tells of, and not on a device, reads back, and it is so. -/
theorem write_true (h : write stateDir r m = .ok path m') (houtside : Outside m'.tree m'.cwd stateDir r)
    (hdevice : ¬ OnDevice m'.tree m'.cwd stateDir) :
    ∃ manifest, ReadsBack m'.tree m'.cwd stateDir manifest ∧ TrueOf m'.tree m'.cwd r manifest := by
  obtain ⟨hcwd, manifest, t, htrue, hgrown, hwritten⟩ := write_ok h
  rw [hcwd] at houtside hdevice ⊢
  refine ⟨manifest, readsBack_of_writeAll manifest hdevice hwritten, htrue.profile, htrue.stripped, ?_⟩
  have hall := (List.forall₂_and_left r.installed manifest.entries).2 ⟨fun i hi => hi, htrue.entries⟩
  exact hall.imp fun i e he => houtside.recordedAs he.1 he.2 hgrown.growsBy hwritten

end Manifest

namespace Project

variable {p : Project} {tools : Toolchain} {s s' : Session} {r : StageReport}

/-- What a staging that ends well comes to, it has put on record at the end, if there is anything installed. -/
theorem write_of_stage (h : p.stage tools s = .ok r s') (hne : r.installed ≠ []) :
    ∃ (m m' : Machine) (path : Path), Manifest.write p.stateDir r m = .ok path m' ∧ s'.machine.tree = m'.tree ∧ s'.machine.cwd = m'.cwd := by
  have houtcome := p.stage_outcome tools s
  rw [h] at houtcome
  cases houtcome with
  | idle _ hnone => exact absurd hnone hne
  | recorded _ _ hwrite halike => exact ⟨_, _, _, hwrite, halike.1, halike.2.1⟩

/-- When a staging has ended well and anything is installed, the manifest reads back and tells the truth about it, if it is kept outside of
what is installed and not on a device; and where an installed file cannot be read, a report changes nothing. -/
theorem stage_records (p : Project) (tools : Toolchain) :
    (∀ (s s' : Session) (r : StageReport), p.stage tools s = .ok r s' → r.installed ≠ [] →
      Manifest.Outside s'.machine.tree s'.machine.cwd p.stateDir r → ¬ Manifest.OnDevice s'.machine.tree s'.machine.cwd p.stateDir →
      ∃ manifest : Manifest, manifest.ReadsBack s'.machine.tree s'.machine.cwd p.stateDir ∧ manifest.TrueOf s'.machine.tree s'.machine.cwd r) ∧
    ∀ (stateDir : Path) (r : StageReport) (m : Machine), (∃ i ∈ r.installed, ∀ content, m.tree.readAll m.cwd i.path ≠ .ok content) →
      ∃ f, Manifest.write stateDir r m = .error f m := by
  refine ⟨?_, fun stateDir r m => Manifest.write_of_unreadable stateDir⟩
  intro s s' r h hne houtside hdevice
  obtain ⟨m, m', path, hwrite, htree, hcwd⟩ := write_of_stage h hne
  rw [htree, hcwd] at houtside hdevice ⊢
  exact Manifest.write_true hwrite houtside hdevice

/-- A project with its sources, its builds and what it installs in three directories. -/
def small : Project :=
  ⟨⟨""⟩, { target := { targetDir := ⟨"out"⟩ }, userspace := { sourceDir := ⟨"src"⟩, installDir := ⟨"inst"⟩ } }, .release, false⟩

/-- A session on a machine where there is one program to stage, something built, and something where the manifest is kept. -/
def sampleRecorded (recorded : Node) : Session where
  machine :=
    { tree := ⟨[(["src"], .directory), (["a.rs", "src"], .file (.new newFileMode)), (["built"], .file ⟨.ofList [1, 2], newFileMode, 0⟩),
        (["dev"], .directory), (["null", "dev"], .device), (["out"], .directory), (["kernel-image-builder", "out"], .directory),
        (["stage-manifest.json", "kernel-image-builder", "out"], recorded)]⟩,
      cwd := [], searchPath := "", home := ⟨""⟩, clock := 0 }

/-- Where the install path and the path of the manifest lead to in the end, and whether a device is there. -/
def ends (m : Machine) : Option Place × Option (Place × Bool) :=
  ((m.tree.entry m.cwd ⟨"inst/a"⟩ .through).toOption.map Prod.fst,
    (m.tree.entry m.cwd (Manifest.pathIn small.stateDir) .through).toOption.map fun e => (e.1, decide (e.2 = .device)))

/-- The sample is staged, and the two paths lead to different places. -/
def isStaged (place : Place) (device : Bool) (result : EStateM.Result Failure Session StageReport) : Bool :=
  match result with
  | .ok r s' => r.installed == [⟨"a", ⟨"inst/a"⟩⟩] && ends s'.machine == (some ["a", "inst"], some (place, device))
  | .error _ _ => false

theorem of_isStaged {place : Place} {device : Bool} {result : EStateM.Result Failure Session StageReport} (hne : place ≠ ["a", "inst"])
    (h : isStaged place device result = true) :
    ∃ r s', result = .ok r s' ∧ r.installed = [⟨"a", ⟨"inst/a"⟩⟩] ∧ Manifest.Outside s'.machine.tree s'.machine.cwd small.stateDir r ∧
      (Manifest.OnDevice s'.machine.tree s'.machine.cwd small.stateDir ↔ device = true) := by
  cases result with
  | error f s' => cases h
  | ok r s' =>
    simp only [isStaged, ends, Bool.and_eq_true, beq_iff_eq, Prod.mk.injEq] at h
    obtain ⟨hinstalled, hpath, hrecord⟩ := h
    refine ⟨r, s', rfl, hinstalled, ?_, ?_⟩
    · intro i hi q n n' hentry heq
      rw [hinstalled, List.mem_singleton] at hi
      subst hi
      rw [hentry] at hpath
      rw [heq] at hrecord
      cases hpath
      exact hne (congrArg Prod.fst (Option.some.inj hrecord)).symm
    · cases hentry : s'.machine.tree.entry s'.machine.cwd (Manifest.pathIn small.stateDir) .through with
      | error e =>
        rw [hentry] at hrecord
        cases hrecord
      | ok at? =>
        obtain ⟨q, n⟩ := at?
        rw [hentry] at hrecord
        have hdevice : decide (n = .device) = device := congrArg Prod.snd (Option.some.inj hrecord)
        rw [← hdevice, decide_eq_true_iff, Manifest.OnDevice]
        simp [hentry]

/-- A manifest that replaces a file of zeros, longer than itself. -/
theorem stage_records_sampleRecorded :
    (∃ r s', small.stage (.idle ⟨"built"⟩) (sampleRecorded (.file ⟨.zeros 70000, newFileMode, 0⟩)) = .ok r s' ∧
      r.installed = [⟨"a", ⟨"inst/a"⟩⟩] ∧ Manifest.Outside s'.machine.tree s'.machine.cwd small.stateDir r ∧
      ¬ Manifest.OnDevice s'.machine.tree s'.machine.cwd small.stateDir ∧
      ∃ manifest : Manifest, manifest.ReadsBack s'.machine.tree s'.machine.cwd small.stateDir ∧
        manifest.TrueOf s'.machine.tree s'.machine.cwd r) ∧
    ∃ f, Manifest.write small.stateDir ⟨.release, [⟨"a", ⟨"inst/a"⟩⟩], false⟩ (sampleRecorded .directory).machine =
      .error f (sampleRecorded .directory).machine := by
  have hstaged : isStaged ["stage-manifest.json", "kernel-image-builder", "out"] false
      (small.stage (.idle ⟨"built"⟩) (sampleRecorded (.file ⟨.zeros 70000, newFileMode, 0⟩))) = true := by decide +kernel
  have hgone : ((sampleRecorded .directory).machine.tree.readAll (sampleRecorded .directory).machine.cwd ⟨"inst/a"⟩).toOption = none := by
    decide +kernel
  constructor
  · obtain ⟨r, s', h, hinstalled, houtside, hdevice⟩ := of_isStaged (by decide) hstaged
    have hne : r.installed ≠ [] := hinstalled ▸ List.cons_ne_nil _ _
    have hdevice : ¬ Manifest.OnDevice s'.machine.tree s'.machine.cwd small.stateDir := fun h => Bool.false_ne_true (hdevice.1 h)
    exact ⟨r, s', h, hinstalled, houtside, hdevice, (stage_records small (.idle ⟨"built"⟩)).1 _ s' r h hne houtside hdevice⟩
  · refine (stage_records small (.idle ⟨"built"⟩)).2 _ _ _ ⟨_, List.mem_singleton_self _, fun content hread => ?_⟩
    rw [hread] at hgone
    cases hgone

/-- A manifest is swallowed where a link leads on to a device: the staging ends well, and there is nothing to read back. -/
theorem stage_onto_device :
    ∃ r s', small.stage (.idle ⟨"built"⟩) (sampleRecorded (.link ⟨"/dev/null"⟩)) = .ok r s' ∧ r.installed = [⟨"a", ⟨"inst/a"⟩⟩] ∧
      Manifest.Outside s'.machine.tree s'.machine.cwd small.stateDir r ∧
      ∀ text, s'.machine.tree.readText s'.machine.cwd (Manifest.pathIn small.stateDir) = .ok text →
        ∀ manifest, Manifest.ofText text ≠ .ok manifest := by
  have hstaged : isStaged ["null", "dev"] true (small.stage (.idle ⟨"built"⟩) (sampleRecorded (.link ⟨"/dev/null"⟩))) = true := by
    decide +kernel
  have hempty : (Manifest.ofText "").toOption = none := by decide +kernel
  obtain ⟨r, s', h, hinstalled, houtside, hdevice⟩ := of_isStaged (by decide) hstaged
  refine ⟨r, s', h, hinstalled, houtside, fun text htext manifest hmanifest => ?_⟩
  obtain ⟨place, hplace⟩ := hdevice.2 rfl
  rw [Tree.readText, Tree.readAll_of_entry hplace] at htext
  obtain rfl : "" = text := Except.ok.inj htext
  rw [hmanifest] at hempty
  cases hempty

end Project

end BootDisk
