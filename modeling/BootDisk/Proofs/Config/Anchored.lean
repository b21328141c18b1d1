import BootDisk.Proofs.Path
import BootDisk.Proofs.Run.Loading

/-!
# Where the paths of a configuration lead

What is loaded is what one text says, with its five paths taken from the project's root (`Config.load_anchored`). Taken from an absolute root
they are absolute, and an absolute path is the same wherever it is taken from, so nothing depends on where they are taken from again.
-/

namespace BootDisk

namespace Path

variable {p root : Path}

/-- An absolute path is the same wherever it is taken from. -/
theorem anchoredAt_of_absolute (h : p.isAbsolute = true) (root : Path) : p.anchoredAt root = p :=
  if_pos h

/-- What is taken from an absolute root is absolute. -/
theorem isAbsolute_anchoredAt (hroot : root.isAbsolute = true) (p : Path) : (p.anchoredAt root).isAbsolute = true := by
  unfold anchoredAt
  split
  · next hp => exact hp
  · exact isAbsolute_join hroot p

end Path

namespace Config

variable {root : Path} {file : Option Path} {m m' : Machine} {c c₀ : Config}

/-- The paths in a configuration. -/
def paths (c : Config) : List Path :=
  [c.target.targetDir, c.kernel.entrySource, c.userspace.sourceDir, c.userspace.installDir, c.image.path]

/-- A configuration with its paths left blank. -/
def withoutPaths (c : Config) : Config :=
  { c with
    target := { c.target with targetDir := ⟨""⟩ }
    kernel := { c.kernel with entrySource := ⟨""⟩ }
    userspace := { c.userspace with sourceDir := ⟨""⟩, installDir := ⟨""⟩ }
    image := { c.image with path := ⟨""⟩ } }

/-- One configuration is another with its paths taken from a root: each is what it was if it was absolute, and else what the root is joined
with. All else is the same. -/
structure Anchored (root : Path) (c₀ c : Config) : Prop where
  paths : c.paths = c₀.paths.map fun p => if p.isAbsolute then p else root.join p
  rest : c.withoutPaths = c₀.withoutPaths

/-- A configuration is told by its paths and the rest of it. -/
theorem eq_of_paths (hpaths : c.paths = c₀.paths) (hrest : c.withoutPaths = c₀.withoutPaths) : c = c₀ := by
  obtain ⟨⟨triple, targetDir⟩, ⟨bin, entrySource, features, noDefault⟩, ⟨sourceDir, installDir, features', noDefault', rustcArgs⟩,
    ⟨path, capacity⟩, tools, qemu⟩ := c
  obtain ⟨⟨triple₀, targetDir₀⟩, ⟨bin₀, entrySource₀, features₀, noDefault₀⟩,
    ⟨sourceDir₀, installDir₀, features'₀, noDefault'₀, rustcArgs₀⟩, ⟨path₀, capacity₀⟩, tools₀, qemu₀⟩ := c₀
  simp_all [paths, withoutPaths]

theorem anchored_resolve (root : Path) (c : Config) : Anchored root c (c.resolve root) :=
  ⟨rfl, rfl⟩

theorem anchored_iff : Anchored root c₀ c ↔ c = c₀.resolve root :=
  ⟨fun h => eq_of_paths h.paths h.rest, fun h => h ▸ anchored_resolve root c₀⟩

/-- Paths that are all absolute stay as they are. -/
theorem resolve_of_absolute (h : ∀ p ∈ c.paths, p.isAbsolute = true) (root : Path) : c.resolve root = c := by
  refine eq_of_paths ?_ rfl
  calc
    (c.resolve root).paths = c.paths.map (·.anchoredAt root) := rfl
    _ = c.paths.map id := List.map_congr_left fun p hp => Path.anchoredAt_of_absolute (h p hp) root
    _ = c.paths := List.map_id _

theorem isAbsolute_of_mem_resolve (hroot : root.isAbsolute = true) : ∀ p ∈ (c.resolve root).paths, p.isAbsolute = true := by
  intro p hp
  obtain ⟨p₀, -, rfl⟩ := List.mem_map.1 (show p ∈ c.paths.map (·.anchoredAt root) from hp)
  exact Path.isAbsolute_anchoredAt hroot p₀

/-- What a configuration has to satisfy does not depend on its paths. -/
theorem validate_resolve (c : Config) (root : Path) : (c.resolve root).validate = c.validate :=
  rfl

/-! ## The text it is read from -/

/-- The text that a configuration is read from: that of the file that is named, or that of the file of the usual name if it is a regular one,
or the empty text. -/
def sourceText (root : Path) (file : Option Path) (m : Machine) : Except IoError String :=
  match file with
  | some p => m.tree.readText m.cwd (root.join p)
  | none =>
    if m.tree.isFile m.cwd (root.join ⟨"kernel-image.toml"⟩) then m.tree.readText m.cwd (root.join ⟨"kernel-image.toml"⟩)
    else .ok ""

theorem sourceText_eq (root : Path) (file : Option Path) (m : Machine) :
    sourceText root file m = (textAt root file m).getD (.ok "") := by
  unfold sourceText textAt fileAt fileName
  cases file with
  | some p => rfl
  | none => cases m.tree.isFile m.cwd (root.join ⟨"kernel-image.toml"⟩) <;> rfl

/-- The empty text is a configuration that chooses nothing. -/
theorem parse_empty : parse "" = .ok {} :=
  rfl

/-- What is loaded is what the text it is read from says, with its paths taken from the root. -/
theorem load_iff_source : load root file m = .ok c m' ↔
    m' = m ∧ ∃ text c₀, sourceText root file m = .ok text ∧ parse text = .ok c₀ ∧ Anchored root c₀ c := by
  have hsource (c₀ : Config) :
      ((textAt root file m = none ∧ c₀ = {}) ∨ ∃ text, textAt root file m = some (.ok text) ∧ parse text = .ok c₀) ↔
        ∃ text, sourceText root file m = .ok text ∧ parse text = .ok c₀ := by
    rw [sourceText_eq]
    cases textAt root file m with
    | some text? => simp
    | none => simp [parse_empty, eq_comm]
  simp only [load_eq_ok, hsource, anchored_iff]
  constructor
  · rintro ⟨hm, c₀, hc, text, htext, hparse⟩
    exact ⟨hm, text, c₀, htext, hparse, hc⟩
  · rintro ⟨hm, text, c₀, htext, hparse, hc⟩
    exact ⟨hm, c₀, hc, text, htext, hparse⟩

/-- So a text that is read and is a configuration is loaded. -/
theorem load_of_source {text : String} (htext : sourceText root file m = .ok text) (hparse : parse text = .ok c₀) :
    load root file m = .ok (c₀.resolve root) m :=
  load_iff_source.2 ⟨rfl, text, c₀, htext, hparse, anchored_resolve root c₀⟩

/-- A configuration is loaded exactly if the text it is read from can be read and is one, and it is what the text says with its paths taken
from the root. So it does not matter whether the usual file is named, nor whether there is none or an empty one. Taken from an absolute root
all paths are absolute, the configuration is valid, and it stays as it is from wherever its paths are taken again. -/
theorem load_anchored (hroot : root.isAbsolute = true) (file : Option Path) (m : Machine) :
    (∀ c m', load root file m = .ok c m' ↔
      m' = m ∧ ∃ text c₀, sourceText root file m = .ok text ∧ parse text = .ok c₀ ∧ Anchored root c₀ c) ∧
    (∀ c m', load root file m = .ok c m' →
      (∀ p ∈ c.paths, p.isAbsolute = true) ∧ c.validate = .ok () ∧ ∀ root', c.resolve root' = c) ∧
    (m.tree.isFile m.cwd (root.join ⟨"kernel-image.toml"⟩) = true → load root (some ⟨"kernel-image.toml"⟩) m = load root none m) ∧
    (m.tree.isFile m.cwd (root.join ⟨"kernel-image.toml"⟩) = false → load root none m = .ok (({} : Config).resolve root) m) ∧
    (sourceText root file m = .ok "" → load root file m = .ok (({} : Config).resolve root) m) := by
  refine ⟨fun c m' => load_iff_source, fun c m' hload => ?_, fun hfile => ?_, fun hnone => ?_, fun htext => load_of_source htext parse_empty⟩
  · obtain ⟨-, text, c₀, -, hparse, hanchored⟩ := load_iff_source.1 hload
    obtain rfl := anchored_iff.1 hanchored
    have habsolute : ∀ p ∈ (c₀.resolve root).paths, p.isAbsolute = true := isAbsolute_of_mem_resolve hroot
    exact ⟨habsolute, (validate_resolve c₀ root).trans (validate_of_parse hparse), resolve_of_absolute habsolute⟩
  · have hnamed : fileAt root (some ⟨"kernel-image.toml"⟩) m = some (root.join ⟨fileName⟩) := rfl
    have hfound : fileAt root none m = some (root.join ⟨fileName⟩) := if_pos hfile
    rw [load_of_fileAt hnamed, load_of_fileAt hfound]
  · have htext : sourceText root none m = .ok "" := by rw [sourceText, hnone, if_neg nofun]
    exact load_of_source htext parse_empty

/-- A configuration that places its builds in a directory of its own, and its image in one that is shared. -/
def placedText : String := "target = \x7b target_dir = \"build/\" \x7d\nimage = \x7b path = \"/srv/disk.img\" \x7d\n"

/-- A machine where there is a project with a text as its configuration. -/
def sampleProject (text : String) : Machine where
  tree := ⟨[(["proj"], .directory), (["kernel-image.toml", "proj"], .file ⟨.ofList (Text.encode text), newFileMode, 0⟩)]⟩
  cwd := []
  searchPath := ""
  home := ⟨""⟩
  clock := 0

/-- The paths of the sample are taken from the project's root, but for the one that is absolute. -/
theorem load_anchored_placedText :
    (Path.mk "/proj").isAbsolute = true ∧ ∃ c, load ⟨"/proj"⟩ none (sampleProject placedText) = .ok c (sampleProject placedText) ∧
      c.paths = [⟨"/proj/build/"⟩, ⟨"/proj/src/lib.rs"⟩, ⟨"/proj/src/bin"⟩, ⟨"/proj/dsk/bin"⟩, ⟨"/srv/disk.img"⟩] ∧
      c.validate = .ok () ∧ c.resolve ⟨"elsewhere"⟩ = c := by
  have hroot : (Path.mk "/proj").isAbsolute = true := by decide
  have hload : load ⟨"/proj"⟩ none (sampleProject placedText) =
      .ok (resolve { target := { targetDir := ⟨"build/"⟩ }, image := { path := ⟨"/srv/disk.img"⟩ } } ⟨"/proj"⟩) (sampleProject placedText) :=
    load_of_textAt placedText (by decide +kernel)
  obtain ⟨-, hsound, -⟩ := load_anchored hroot none (sampleProject placedText)
  obtain ⟨-, hvalid, hfixed⟩ := hsound _ _ hload
  exact ⟨hroot, _, hload, by decide, hvalid, hfixed ⟨"elsewhere"⟩⟩

end Config

end BootDisk
