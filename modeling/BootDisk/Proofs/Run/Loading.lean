import BootDisk.CommandLine
import BootDisk.Proofs.Basic
import BootDisk.Proofs.Frame

/-!
# The project that a run is about

Loading a project looks at the machine and changes nothing. What comes of it is decided by where the run works and by the text of the
configuration file, if there is one (`Config.textAt`), and every configuration that is loaded is valid.
-/

namespace BootDisk

namespace Config

variable {c : Config} {text : String} {root path : Path} {m m' : Machine}

/-- A valid configuration has a capacity that can be counted. -/
theorem capacity_of_validate (h : c.validate = .ok ()) : ∃ n, c.image.capacityBytes = .ok n := by
  unfold validate at h
  split at h
  · cases h
  split at h
  · cases h
  split at h
  · cases h
  cases hc : c.image.capacityBytes with
  | ok n => exact ⟨n, rfl⟩
  | error e =>
    rw [hc] at h
    cases h

/-- A configuration that is read from a text is valid. -/
theorem validate_of_parse (h : parse text = .ok c) : c.validate = .ok () := by
  unfold parse at h
  dsimp only at h
  split at h
  · obtain ⟨es, -, h⟩ := ExceptAux.bind_eq_ok.1 h
    obtain ⟨c', -, h⟩ := ExceptAux.bind_eq_ok.1 h
    obtain ⟨_, hvalid, h⟩ := ExceptAux.bind_eq_ok.1 h
    cases h
    exact hvalid
  · obtain ⟨es, hes, -⟩ := ExceptAux.bind_eq_ok.1 h
    cases hes

/-- A configuration is read from a file that has the text of one. -/
theorem readFile_eq_ok :
    readFile path m = .ok c m' ↔ m' = m ∧ ∃ text, m.tree.readText m.cwd path = .ok text ∧ parse text = .ok c := by
  constructor
  · intro h
    obtain ⟨text, m₁, hlook, hparsed⟩ := bind_eq_ok.1 h
    obtain ⟨htext, rfl⟩ := Act.look_eq_ok.1 (during_eq_ok.1 hlook)
    rw [during_eq_ok] at hparsed
    cases hparse : parse text with
    | ok c' =>
      rw [hparse] at hparsed
      cases hparsed
      exact ⟨rfl, text, htext, hparse⟩
    | error e =>
      rw [hparse] at hparsed
      cases hparsed
  · rintro ⟨rfl, text, htext, hparse⟩
    have hlook : Act.look (fun t cwd => t.readText cwd path) m' = .ok text m' := Act.look_of_ok htext
    refine (bind_of_ok (during_eq_ok.2 hlook)).trans (during_eq_ok.2 ?_)
    rw [hparse]
    rfl

/-- Its paths are taken from the root then. -/
theorem readFile_resolve_eq_ok :
    (readFile path >>= fun c₀ => pure (c₀.resolve root)) m = .ok c m' ↔
      m' = m ∧ ∃ text c₀, m.tree.readText m.cwd path = .ok text ∧ parse text = .ok c₀ ∧ c = c₀.resolve root := by
  rw [bind_eq_ok]
  constructor
  · rintro ⟨c₀, m₁, hread, h⟩
    obtain ⟨rfl, text, htext, hparse⟩ := readFile_eq_ok.1 hread
    cases h
    exact ⟨rfl, text, c₀, htext, hparse, rfl⟩
  · rintro ⟨rfl, text, c₀, htext, hparse, rfl⟩
    exact ⟨c₀, m', readFile_eq_ok.2 ⟨rfl, text, htext, hparse⟩, rfl⟩

/-- Where the configuration is read: the file that is named, or the one of the usual name if it is there. -/
def fileAt (root : Path) (file : Option Path) (m : Machine) : Option Path :=
  match file with
  | some p => some (root.join p)
  | none => if m.tree.isFile m.cwd (root.join ⟨fileName⟩) then some (root.join ⟨fileName⟩) else none

/-- The text of the configuration file, if there is one, or why it cannot be read. -/
def textAt (root : Path) (file : Option Path) (m : Machine) : Option (Except IoError String) :=
  (fileAt root file m).map fun path => m.tree.readText m.cwd path

theorem textAt_of_no_file {file : Option Path} (h : fileAt root file m = none) : textAt root file m = none := by
  rw [textAt, h]
  rfl

theorem load_of_fileAt {file : Option Path} (h : fileAt root file m = some path) :
    load root file m = (readFile path >>= fun c₀ => pure (c₀.resolve root)) m := by
  cases file with
  | some p =>
    cases h
    rfl
  | none =>
    by_cases hfile : m.tree.isFile m.cwd (root.join ⟨fileName⟩) = true
    · have hholds : Act.holds (fun t cwd => t.isFile cwd (root.join ⟨fileName⟩)) m = .ok true m := by
        rw [Act.holds, hfile]
      cases (if_pos hfile).symm.trans h
      exact bind_of_ok hholds
    · cases (if_neg hfile).symm.trans h

theorem load_of_no_file {file : Option Path} (h : fileAt root file m = none) :
    load root file m = .ok (({} : Config).resolve root) m := by
  cases file with
  | some p => cases h
  | none =>
    by_cases hfile : m.tree.isFile m.cwd (root.join ⟨fileName⟩) = true
    · cases (if_pos hfile).symm.trans h
    · have hholds : Act.holds (fun t cwd => t.isFile cwd (root.join ⟨fileName⟩)) m = .ok false m := by
        rw [Act.holds, Bool.eq_false_iff.2 hfile]
      exact bind_of_ok hholds

/-- The configuration that is loaded is what the text of the file says, or all defaults where there is no file, with its paths taken from
the root. -/
theorem load_eq_ok {file : Option Path} :
    load root file m = .ok c m' ↔ m' = m ∧ ∃ c₀, c = c₀.resolve root ∧
      ((textAt root file m = none ∧ c₀ = {}) ∨ ∃ text, textAt root file m = some (.ok text) ∧ parse text = .ok c₀) := by
  unfold textAt
  cases hfile : fileAt root file m with
  | some path =>
    rw [load_of_fileAt hfile, readFile_resolve_eq_ok]
    constructor
    · rintro ⟨hm, text, c₀, htext, hparse, hc⟩
      exact ⟨hm, c₀, hc, Or.inr ⟨text, congrArg some htext, hparse⟩⟩
    · rintro ⟨hm, c₀, hc, ⟨hnone, -⟩ | ⟨text, htext, hparse⟩⟩
      · cases hnone
      · exact ⟨hm, text, c₀, Option.some.inj htext, hparse, hc⟩
  | none =>
    rw [load_of_no_file hfile]
    constructor
    · intro h
      cases h
      exact ⟨rfl, {}, rfl, Or.inl ⟨rfl, rfl⟩⟩
    · rintro ⟨rfl, c₀, rfl, ⟨-, rfl⟩ | ⟨text, htext, -⟩⟩
      · rfl
      · cases htext

/-- A configuration is loaded as its file says, if the text of the file is one. -/
theorem load_of_textAt {file : Option Path} (text : String) (h : (textAt root file m).map Except.toOption = some (some text) ∧
    (parse text).toOption.map (·.resolve root) = some c) : load root file m = .ok c m := by
  obtain ⟨htext, hparse⟩ := h
  obtain ⟨r, hr, hrtext⟩ := Option.map_eq_some_iff.1 htext
  obtain ⟨c₀, hc₀, hresolved⟩ := Option.map_eq_some_iff.1 hparse
  rw [ExceptAux.toOption_eq_some.1 hrtext] at hr
  exact load_eq_ok.2 ⟨rfl, c₀, hresolved.symm, Or.inr ⟨text, hr, ExceptAux.toOption_eq_some.1 hc₀⟩⟩

/-- Loading a configuration changes nothing. -/
theorem leaves_load {β : Type} (part : Machine → β) (root : Path) (file : Option Path) : Leaves part (load root file) := by
  have hread (path : Path) : Leaves part (readFile path) := by
    refine .bind (.during _ (.look _)) fun text => .during _ ?_
    split
    · exact .pure _
    · exact .fail _
  intro m
  cases h : fileAt root file m with
  | some path =>
    rw [load_of_fileAt h]
    exact Leaves.bind (hread path) (fun _ => .pure _) m
  | none =>
    rw [load_of_no_file h]
    rfl

/-- A configuration that is loaded has a capacity that can be counted. -/
theorem capacity_of_load {file : Option Path} (h : load root file m = .ok c m') : ∃ n, c.image.capacityBytes = .ok n := by
  obtain ⟨-, c₀, rfl, ⟨-, rfl⟩ | ⟨text, -, hparse⟩⟩ := load_eq_ok.1 h
  · exact ⟨_, rfl⟩
  · obtain ⟨n, hn⟩ := capacity_of_validate (validate_of_parse hparse)
    exact ⟨n, hn⟩

end Config

/-- The project in the root that chooses nothing. -/
def Project.stock : Project :=
  ⟨Place.path [], ({} : Config).resolve (Place.path []), .release, false⟩

namespace Settings

variable {settings : Settings} {p : Project} {m m' : Machine}

/-- The project of a run is where the run works, with the configuration that is loaded there. Loading it changes nothing. -/
theorem project_eq_ok :
    settings.project m = .ok p m' ↔ m' = m ∧ ∃ c, Config.load (Place.path m.cwd) settings.config m = .ok c m ∧
      p = ⟨Place.path m.cwd, c, settings.profile, settings.verbose⟩ := by
  constructor
  · intro h
    obtain ⟨m₀, m₁, hget, h⟩ := bind_eq_ok.1 h
    cases hget
    obtain ⟨c, m₁, hload, h⟩ := bind_eq_ok.1 h
    obtain ⟨rfl, -⟩ := Config.load_eq_ok.1 hload
    cases h
    exact ⟨rfl, c, hload, rfl⟩
  · rintro ⟨rfl, c, hload, rfl⟩
    exact bind_of_ok hload

theorem endOf_project (settings : Settings) (m : Machine) : endOf (settings.project m) = m :=
  Leaves.bind (fun _ => rfl) (fun _ => .bind (Config.leaves_load id _ _) fun _ => .pure _) m

/-- A project that is loaded has an image of a capacity that can be counted. -/
theorem capacity_of_project (h : settings.project m = .ok p m') : ∃ n, p.config.image.capacityBytes = .ok n := by
  obtain ⟨-, c, hload, rfl⟩ := project_eq_ok.1 h
  exact Config.capacity_of_load hload

/-- Where there is no configuration, a run from the root is about the stock project. -/
theorem project_of_no_file (hcwd : m.cwd = []) (hfile : Config.fileAt (Place.path []) none m = none) :
    Settings.project {} m = .ok Project.stock m :=
  project_eq_ok.2 ⟨rfl, _, hcwd ▸ Config.load_of_no_file hfile, by rw [hcwd]; rfl⟩

end Settings

end BootDisk
