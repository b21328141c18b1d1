import BootDisk.Proofs.Config.Anchored
import BootDisk.Proofs.FileTree.Straight
import BootDisk.Proofs.Staging.History

/-!
# Records apart from what is installed

The builder's own records must stay out of what is installed. The directory for builds and the one to install into are chosen freely, and no
choice is refused, so whether they do stay out is a matter of where the two paths lead: exactly those projects keep them apart that install
neither above their builds, nor at the directory of the records or at the manifest (`Project.keptApart_iff`). Where no link is on the way, a
staging of such a project puts nothing on record where it installs (`Project.KeptApart.node?_of_stage`), and a staging of any other one does
when it ends well with anything installed (`Project.places_of_recorded`).
-/

namespace BootDisk

namespace Place

/-- At the one place or below it. The last name of a place comes first. -/
def Within (q d : Place) : Prop :=
  d <:+ q

instance (q d : Place) : Decidable (q.Within d) :=
  inferInstanceAs (Decidable (d <:+ q))

theorem within_cons {n : String} {q d : Place} : Within (n :: q) d ↔ d = n :: q ∨ q.Within d :=
  List.suffix_cons_iff

end Place

/-! ## Where the manifest is written -/

namespace Manifest

variable {stateDir : Path} {r : StageReport} {m : Machine}

theorem isFileName_fileName : IsFileName fileName := by decide

/-- What comes of the writing of a manifest, whether it ends well or not, where no link is passed: directories on the way to where it is kept,
and a file there. -/
theorem node?_of_write (hs : m.tree.Straight (pathIn stateDir)) (hdir : stateDir.isAbsolute = true) (r : StageReport) (q : Place) :
    (endOf (write stateDir r m)).tree.node? q = m.tree.node? q ∨
      (q ∈ stateDir.stops ∧ m.tree.node? q = none ∧ (endOf (write stateDir r m)).tree.node? q = some .directory) ∨
      (q = (pathIn stateDir).resolved ∧ ∃ f, (endOf (write stateDir r m)).tree.node? q = some (.file f)) := by
  have hgrown {t : Tree} (h : m.tree.GrowsAlong t m.cwd stateDir) (q : Place) :
      t.node? q = m.tree.node? q ∨ (q ∈ stateDir.stops ∧ m.tree.node? q = none ∧ t.node? q = some .directory) :=
    Classical.or_iff_not_imp_left.2 (h.stops (hs.of_join isFileName_fileName) hdir)
  cases hwrite : write stateDir r m with
  | error e m' => exact (hgrown (growsAlong_of_write_error hwrite) q).imp_right Or.inl
  | ok path m' =>
    obtain ⟨-, manifest, t, -, hmade, hwritten⟩ := write_ok hwrite
    rw [endOf_ok]
    obtain ⟨q', -, hagree, ⟨f, -, hentry⟩ | ⟨hsame, -⟩⟩ := FileCall.writeAll_ok hwritten
    · by_cases hq : q = q'
      · subst hq
        have hfile := (Tree.node?_of_entry hentry).1
        have hstraight : m'.tree.Straight (pathIn stateDir) := (hs.of_growsBy hmade.growsBy).of_file hagree hfile
        exact Or.inr (Or.inr ⟨hstraight.place_of_entry (Path.isAbsolute_join hdir _) hentry, f, hfile⟩)
      · rw [hagree q hq]
        exact (hgrown hmade q).imp_right Or.inl
    · rw [hsame]
      exact (hgrown hmade q).imp_right Or.inl

end Manifest

namespace Project

variable {p : Project} {tools : Toolchain} {s s' : Session} {r : StageReport} {q : Place}

/-! ## The places of a project -/

/-- Where the path to install into leads by its names. -/
def installPlace (p : Project) : Place :=
  p.config.userspace.installDir.resolved

/-- Where the path of the builds leads. -/
def buildPlace (p : Project) : Place :=
  p.config.target.targetDir.resolved

/-- Where the path of the builder's records leads. -/
def statePlace (p : Project) : Place :=
  p.stateDir.resolved

/-- Where the path of the manifest leads. -/
def recordPlace (p : Project) : Place :=
  (Manifest.pathIn p.stateDir).resolved

/-- The records stay out of what is installed: neither their directory nor the manifest is where the project installs, or below. -/
structure KeptApart (p : Project) : Prop where
  state : ¬ p.statePlace.Within p.installPlace
  record : ¬ p.recordPlace.Within p.installPlace

theorem statePlace_eq (p : Project) : p.statePlace = "kernel-image-builder" :: p.buildPlace :=
  Path.resolved_join (by decide) _

theorem recordPlace_eq (p : Project) : p.recordPlace = "stage-manifest.json" :: p.statePlace :=
  Path.resolved_join Manifest.isFileName_fileName _

/-- The records are kept apart unless the project installs at a place above them, or at one of them. -/
theorem keptApart_iff : p.KeptApart ↔ ¬ p.buildPlace.Within p.installPlace ∧ p.installPlace ≠ "kernel-image-builder" :: p.buildPlace ∧
    p.installPlace ≠ "stage-manifest.json" :: "kernel-image-builder" :: p.buildPlace := by
  have hstate : p.statePlace.Within p.installPlace ↔
      p.installPlace = "kernel-image-builder" :: p.buildPlace ∨ p.buildPlace.Within p.installPlace := by
    rw [statePlace_eq, Place.within_cons]
  have hrecord : p.recordPlace.Within p.installPlace ↔
      p.installPlace = "stage-manifest.json" :: "kernel-image-builder" :: p.buildPlace ∨ p.statePlace.Within p.installPlace := by
    rw [recordPlace_eq, Place.within_cons, statePlace_eq]
  constructor
  · intro h
    exact ⟨fun hbuild => h.state (hstate.2 (Or.inr hbuild)), fun heq => h.state (hstate.2 (Or.inl heq)),
      fun heq => h.record (hrecord.2 (Or.inl heq))⟩
  · rintro ⟨hbuild, hdir, hfile⟩
    have hout : ¬ p.statePlace.Within p.installPlace := fun h => (hstate.1 h).elim hdir hbuild
    exact ⟨hout, fun h => (hrecord.1 h).elim hfile hout⟩

/-! ## A staging and its record -/

/-- The tree when a staging has done all that it does before anything is put on record. -/
def rebuiltTree (p : Project) (tools : Toolchain) (s : Session) : Tree :=
  (endOf (Staging.rebuild tools p.profile p.config.userspace.sourceDir p.config.userspace.installDir s)).machine.tree

/-- What comes of a staging after that, it comes of the writing of a manifest. -/
theorem tree_of_stage (p : Project) (tools : Toolchain) (s : Session) :
    (endOf (p.stage tools s)).machine.tree = p.rebuiltTree tools s ∨
      ∃ r m, m.tree = p.rebuiltTree tools s ∧ (endOf (p.stage tools s)).machine.tree = (endOf (Manifest.write p.stateDir r m)).tree := by
  unfold rebuiltTree
  have houtcome := p.stage_outcome tools s
  generalize p.stage tools s = result at houtcome ⊢
  cases houtcome with
  | failed hrebuild =>
    rw [hrebuild]
    exact Or.inl rfl
  | idle hrebuild _ =>
    rw [hrebuild]
    exact Or.inl rfl
  | @unrecorded r s₁ e m hrebuild _ hwrite =>
    rw [hrebuild]
    refine Or.inr ⟨r, s₁.machine, rfl, ?_⟩
    rw [hwrite]
    rfl
  | @recorded r s₁ s' path m hrebuild _ hwrite halike =>
    rw [hrebuild]
    refine Or.inr ⟨r, s₁.machine, rfl, ?_⟩
    rw [hwrite]
    exact halike.1

section Straight

variable (hs : (p.rebuiltTree tools s).Straight (Manifest.pathIn p.stateDir)) (hstate : p.stateDir.isAbsolute = true)
include hs hstate

/-- What the record adds to what has been installed, where no link is passed: directories on the way to it, and a file. -/
theorem node?_of_stage (q : Place) :
    (endOf (p.stage tools s)).machine.tree.node? q = (p.rebuiltTree tools s).node? q ∨
      (q ∈ p.stateDir.stops ∧ (p.rebuiltTree tools s).node? q = none ∧ (endOf (p.stage tools s)).machine.tree.node? q = some .directory) ∨
      (q = p.recordPlace ∧ ∃ f, (endOf (p.stage tools s)).machine.tree.node? q = some (.file f)) := by
  rcases tree_of_stage p tools s with hsame | ⟨r, m, hm, hwritten⟩
  · exact Or.inl (congrArg (·.node? q) hsame)
  · rw [← hm] at hs ⊢
    rw [hwritten]
    exact Manifest.node?_of_write hs hstate r q

/-- So no link is passed in the end. -/
theorem straight_of_stage : (endOf (p.stage tools s)).machine.tree.Straight (Manifest.pathIn p.stateDir) := by
  intro q hq target hlink
  rcases node?_of_stage hs hstate q with hsame | ⟨-, -, hdir⟩ | ⟨-, f, hfile⟩
  · exact hs q hq target (hsame.symm.trans hlink)
  · cases hdir.symm.trans hlink
  · cases hfile.symm.trans hlink

/-- What is put on record is where the names of its path say. -/
theorem places_of_recorded (h : recorded (p.stage tools s) = some r) :
    (endOf (p.stage tools s)).machine.tree.node? p.statePlace = some .directory ∧
      ∃ n, (endOf (p.stage tools s)).machine.tree.node? p.recordPlace = some n ∧ (n = .device ∨ ∃ f, n = .file f ∧ f.Records r) := by
  have hstraight := straight_of_stage hs hstate
  obtain ⟨q, n, hentry, hn⟩ := file_of_recorded h
  obtain ⟨slash, harr, -⟩ := Tree.entry_eq_ok.1 hentry
  obtain ⟨-, d, hd⟩ := Tree.reaches_of_arrive Manifest.isFileName_fileName harr
  refine ⟨(hstraight.of_join Manifest.isFileName_fileName).node?_of_reaches hstate hd, n, ?_, hn⟩
  rw [recordPlace_eq]
  exact hstraight.node?_of_entry hstate Manifest.isFileName_fileName hentry

/-- Where the records are kept apart, nothing of them comes to where the project installs, but for a directory that the path of the records
goes down to and up from again. -/
theorem KeptApart.node?_of_stage (hp : p.KeptApart) (hq : q.Within p.installPlace) :
    (endOf (p.stage tools s)).machine.tree.node? q = (p.rebuiltTree tools s).node? q ∨
      ((p.rebuiltTree tools s).node? q = none ∧ (endOf (p.stage tools s)).machine.tree.node? q = some .directory ∧
        q ∈ p.stateDir.stops ∧ .up ∈ p.stateDir.steps) := by
  rcases Project.node?_of_stage hs hstate q with hsame | ⟨hstop, hnone, hdir⟩ | ⟨heq, -⟩
  · exact Or.inl hsame
  · refine Or.inr ⟨hnone, hdir, hstop, ?_⟩
    by_contra hup
    exact hp.state (hq.trans (Step.suffix_of_mem_stops hup hstop))
  · exact absurd (heq ▸ hq) hp.record

end Straight

/-- Whether a project keeps its records out of what it installs, for every configuration that is loaded for an absolute root. Whatever paths
it has, it is accepted; the records are kept apart exactly if it installs neither above its builds, nor at the directory of the records, nor
at the manifest. The path to install into leads to the place that its names say, if it passes no link; and if the path of the manifest
passes none either when all is installed, a staging that ends well with anything installed has put the directory of the records and the
manifest where their names say, and no staging changes anything where it installs by putting it on record, if the records are kept apart,
but for directories that their path goes down to and up from again. -/
theorem state_apart_iff {root : Path} {file : Option Path} {m m' : Machine} {c : Config} {p : Project} (hroot : root.isAbsolute = true)
    (hload : Config.load root file m = .ok c m') (hp : p.config = c) :
    (∀ c' : Config, c'.withoutPaths = c.withoutPaths → c'.validate = .ok ()) ∧
    (p.KeptApart ↔ ¬ p.buildPlace.Within p.installPlace ∧ p.installPlace ≠ "kernel-image-builder" :: p.buildPlace ∧
      p.installPlace ≠ "stage-manifest.json" :: "kernel-image-builder" :: p.buildPlace) ∧
    (∀ (t : Tree) (cwd d : Place), t.Straight p.config.userspace.installDir → t.Reaches cwd p.config.userspace.installDir d →
      d = p.installPlace) ∧
    ∀ tools s, (p.rebuiltTree tools s).Straight (Manifest.pathIn p.stateDir) →
      (∀ r s', p.stage tools s = .ok r s' → r.installed ≠ [] → s'.machine.tree.node? p.statePlace = some .directory ∧
        ∃ n, s'.machine.tree.node? p.recordPlace = some n ∧ (n = .device ∨ ∃ f, n = .file f ∧ f.Records r)) ∧
      (p.KeptApart → ∀ q : Place, q.Within p.installPlace →
        (endOf (p.stage tools s)).machine.tree.node? q = (p.rebuiltTree tools s).node? q ∨
          ((p.rebuiltTree tools s).node? q = none ∧ (endOf (p.stage tools s)).machine.tree.node? q = some .directory ∧
            q ∈ p.stateDir.stops ∧ .up ∈ p.stateDir.steps)) := by
  obtain ⟨-, text, c₀, -, hparse, hanchored⟩ := Config.load_iff_source.1 hload
  obtain rfl := Config.anchored_iff.1 hanchored
  have habsolute : ∀ path ∈ p.config.paths, path.isAbsolute = true := hp ▸ Config.isAbsolute_of_mem_resolve hroot
  have hinstall : p.config.userspace.installDir.isAbsolute = true := habsolute _ (by simp [Config.paths])
  have hstate : p.stateDir.isAbsolute = true := Path.isAbsolute_join (habsolute _ (by simp [Config.paths])) _
  refine ⟨fun c' hc' => ?_, keptApart_iff, fun t cwd d hs hd => hs.place_of_reaches hinstall hd, fun tools s hs => ⟨?_, ?_⟩⟩
  · calc
      c'.validate = c'.withoutPaths.validate := rfl
      _ = (c₀.resolve root).withoutPaths.validate := by rw [hc']
      _ = c₀.validate := rfl
      _ = .ok () := Config.validate_of_parse hparse
  · intro r s' hstage hne
    have hplaces := places_of_recorded hs hstate (recorded_eq_some.2 ⟨s', hstage, hne⟩)
    rwa [hstage, endOf_ok] at hplaces
  · exact fun hapart q hq => hapart.node?_of_stage hs hstate hq

/-- A session where there is a project with a text as its configuration, one program to stage, and something that is built. -/
def sampleProgram (text name : String) : Session where
  machine :=
    { Config.sampleProject text with
      tree := ⟨(Config.sampleProject text).tree.entries ++ [(["src", "proj"], .directory), (["bin", "src", "proj"], .directory),
        ([name ++ ".rs", "bin", "src", "proj"], .file (.new newFileMode)), (["built"], .file ⟨.ofList [1, 2], newFileMode, 0⟩)]⟩ }

/-- A configuration with its builds beside what it installs, by a path that goes through it. -/
def besideText : String := "[target]\ntarget_dir = \"dsk/bin/../build\"\n"

/-- The project of that configuration. -/
def beside : Project :=
  ⟨⟨"/proj"⟩, Config.resolve { target := { targetDir := ⟨"dsk/bin/../build"⟩ } } ⟨"/proj"⟩, .release, false⟩

/-- The records of the sample are kept apart, and its one program is staged. -/
theorem state_apart_iff_beside :
    (Path.mk "/proj").isAbsolute = true ∧ (∃ m m', Config.load ⟨"/proj"⟩ none m = .ok beside.config m') ∧ beside.KeptApart ∧
      beside.installPlace = ["bin", "dsk", "proj"] ∧ ∃ s r s', beside.stage (.idle ⟨"/built"⟩) s = .ok r s' ∧
        r.installed = [⟨"a", ⟨"/proj/dsk/bin/a"⟩⟩] ∧
        (beside.rebuiltTree (.idle ⟨"/built"⟩) s).Straight (Manifest.pathIn beside.stateDir) ∧
        s'.machine.tree.node? ["kernel-image-builder", "build", "dsk", "proj"] = some .directory ∧
        (∃ f : File, s'.machine.tree.node? ["stage-manifest.json", "kernel-image-builder", "build", "dsk", "proj"] = some (.file f) ∧
          f.Records r) ∧
        ∀ q : Place, q.Within beside.installPlace → s'.machine.tree.node? q = (beside.rebuiltTree (.idle ⟨"/built"⟩) s).node? q := by
  have hroot : (Path.mk "/proj").isAbsolute = true := by decide
  have hload : Config.load ⟨"/proj"⟩ none (sampleProgram besideText "a").machine =
      .ok beside.config (sampleProgram besideText "a").machine := Config.load_of_textAt besideText (by decide +kernel)
  have hplaces : beside.installPlace = ["bin", "dsk", "proj"] ∧
      beside.statePlace = ["kernel-image-builder", "build", "dsk", "proj"] ∧
      beside.recordPlace = ["stage-manifest.json", "kernel-image-builder", "build", "dsk", "proj"] ∧
      ¬ beside.buildPlace.Within beside.installPlace ∧ beside.installPlace ≠ "kernel-image-builder" :: beside.buildPlace ∧
      beside.installPlace ≠ "stage-manifest.json" :: "kernel-image-builder" :: beside.buildPlace := by decide +kernel
  have hruns : (valueOf (beside.stage (.idle ⟨"/built"⟩) (sampleProgram besideText "a"))).map StageReport.installed =
        some [⟨"a", ⟨"/proj/dsk/bin/a"⟩⟩] ∧
      ((endOf (beside.stage (.idle ⟨"/built"⟩) (sampleProgram besideText "a"))).machine.tree.node?
        ["stage-manifest.json", "kernel-image-builder", "build", "dsk", "proj"]).any Node.isFile = true ∧
      (beside.rebuiltTree (.idle ⟨"/built"⟩) (sampleProgram besideText "a")).Straight (Manifest.pathIn beside.stateDir) ∧
      ∀ q ∈ beside.stateDir.stops, q.Within beside.installPlace →
        (beside.rebuiltTree (.idle ⟨"/built"⟩) (sampleProgram besideText "a")).node? q ≠ none := by decide +kernel
  obtain ⟨hplace, hstate, hrecord, hout⟩ := hplaces
  obtain ⟨hvalue, hnode, hstraight, hthere⟩ := hruns
  obtain ⟨-, hiff, -, hstage⟩ := state_apart_iff (p := beside) hroot hload rfl
  have hapart : beside.KeptApart := hiff.2 hout
  obtain ⟨hplaces, hclear⟩ := hstage (.idle ⟨"/built"⟩) (sampleProgram besideText "a") hstraight
  obtain ⟨r, h, hinstalled⟩ := exists_of_valueOf hvalue
  obtain ⟨hdir, n, hn, hfile⟩ := hplaces r _ h (hinstalled ▸ List.cons_ne_nil _ _)
  rw [hstate] at hdir
  rw [hrecord] at hn
  refine ⟨hroot, ⟨_, _, hload⟩, hapart, hplace, _, r, _, h, hinstalled, hstraight, hdir, ?_, fun q hq => ?_⟩
  · rcases hfile with rfl | ⟨f, rfl, hrecords⟩
    · -- it is no device that is there
      rw [hn] at hnode
      cases hnode
    · exact ⟨f, hn, hrecords⟩
  · exact (hclear hapart q hq).resolve_right fun hmade => hthere q hmade.2.2.1 hq hmade.1

/-- A configuration with the directory of the records as the one to install into. -/
def ontoText : String := "[userspace]\ninstall_dir = \"target/kernel-image-builder\"\n"

/-- The project of that configuration. -/
def onto : Project :=
  ⟨⟨"/proj"⟩, Config.resolve { userspace := { installDir := ⟨"target/kernel-image-builder"⟩ } } ⟨"/proj"⟩, .release, false⟩

/-- Records that are not kept apart: the configuration is accepted, the directory of the records is the one that is installed into, and when
the one program has been staged, what is at its install path is no program but the manifest. -/
theorem state_over_program :
    (Path.mk "/proj").isAbsolute = true ∧
      Config.load ⟨"/proj"⟩ none (sampleProgram ontoText "stage-manifest.json").machine =
        .ok onto.config (sampleProgram ontoText "stage-manifest.json").machine ∧
      onto.statePlace = onto.installPlace ∧ onto.recordPlace.Within onto.installPlace ∧
      ∃ r s', onto.stage (.idle ⟨"/built"⟩) (sampleProgram ontoText "stage-manifest.json") = .ok r s' ∧
        ∃ i f, r.installed = [i] ∧ s'.machine.file? i.path = some (onto.recordPlace, f) ∧ f.Records r := by
  have hruns : onto.statePlace = onto.installPlace ∧ onto.recordPlace.Within onto.installPlace ∧
      (valueOf (onto.stage (.idle ⟨"/built"⟩) (sampleProgram ontoText "stage-manifest.json"))).map StageReport.installed =
        some [⟨"stage-manifest.json", Manifest.pathIn onto.stateDir⟩] ∧
      ((endOf (onto.stage (.idle ⟨"/built"⟩) (sampleProgram ontoText "stage-manifest.json"))).machine.file?
        (Manifest.pathIn onto.stateDir)).map Prod.fst = some onto.recordPlace := by decide +kernel
  obtain ⟨hstate, hrecord, hvalue, hfile⟩ := hruns
  refine ⟨by decide, Config.load_of_textAt ontoText (by decide +kernel), hstate, hrecord, ?_⟩
  obtain ⟨r, h, hinstalled⟩ := exists_of_valueOf hvalue
  obtain ⟨⟨q, f⟩, hf, hq⟩ := Option.map_eq_some_iff.1 hfile
  refine ⟨r, _, h, _, f, hinstalled, hf.trans (congrArg (fun q => some (q, f)) hq), ?_⟩
  obtain ⟨q', n, hentry, hn⟩ := file_of_recorded (recorded_eq_some.2 ⟨_, h, hinstalled ▸ List.cons_ne_nil _ _⟩)
  have hsame := hentry.symm.trans (Machine.file?_eq_some.1 hf)
  rcases hn with rfl | ⟨g, rfl, hrecords⟩
  · cases hsame
  · cases hsame
    exact hrecords

end Project

end BootDisk
