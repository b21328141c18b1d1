import Mathlib.Algebra.Group.Nat.Defs
import BootDisk.Proofs.Container.Creation
import BootDisk.Proofs.Run.Loading

/-!
# Which capacities can be used

A configuration is accepted with any capacity that 64 bits can count in bytes, while a file can have no more bytes than 63 bits can count.
So half of the accepted capacities are those of no container: what is loaded has a capacity that is counted exactly, and the container of
that capacity can be created just if it is below 2^43 MiB (`Config.capacity_usable`).
-/

namespace BootDisk

namespace Tree

variable {t : Tree} {cwd : Place} {p : Path}

/-- A path could be that of a new file: it names, with no slash behind, a name that calls accept in a directory that has nothing of that
name, not even a link. The directory is what the rest of the path resolves to, or where the work is done if there is no more. -/
def CouldBeNew (t : Tree) (cwd : Place) (p : Path) : Prop :=
  ∃ dir name d, p = dir.join ⟨name⟩ ∧ IsFileName name ∧ Nameable dir name ∧
    (t.entry cwd dir .through = .ok (d, .directory) ∨ dir.text = "" ∧ d = cwd) ∧ t.node? (name :: d) = none

/-- At such a path a new file can be made. -/
theorem CouldBeNew.isFree (h : t.CouldBeNew cwd p) : t.IsFree cwd p := by
  obtain ⟨dir, name, d, rfl, hname, hnameable, hdir, hnone⟩ := h
  have hd : t.Reaches cwd dir d := by
    rcases hdir with hdir | ⟨hdir, rfl⟩
    · exact reaches_of_entry hdir
    · exact reaches_of_empty t _ hdir
  exact ⟨d, name, (arrive_join hname rfl).2 ⟨hnameable, d, hd, (under_of_none hnone).symm⟩⟩

end Tree

/-- A capacity is counted in bytes exactly, if 64 bits are enough. -/
theorem ImageSection.capacityBytes_eq_ok {image : ImageSection} {n : Nat} :
    image.capacityBytes = .ok n ↔ n = image.capacityMib.toNat * 2 ^ 20 ∧ n < 2 ^ 64 := by
  unfold capacityBytes capacityBytes? bytesPerMib
  dsimp only
  split
  · next n' h =>
    split at h
    · cases h
      simp
      omega
    · cases h
  · next h =>
    split at h
    · cases h
    · simp
      omega

namespace Config

variable {root : Path} {file : Option Path} {m m' : Machine} {c : Config}

/-- What is loaded has a capacity that is counted exactly. Wherever its image could be a new file, making sure of the container creates one
of just that capacity if it is below 2^43 MiB, and fails from there on, where no file can be so long. -/
theorem capacity_usable (hload : load root file m = .ok c m') (tools : Toolchain) (hcreate : tools.create = Container.create)
    (s : Session) (hnew : s.machine.tree.CouldBeNew s.machine.cwd c.image.path) :
    c.image.capacityBytes = .ok (c.image.capacityMib.toNat * 2 ^ 20) ∧
    (c.image.capacityMib.toNat < 2 ^ 43 →
      ∃ after q f, Container.ensure tools c.image.path (c.image.capacityMib.toNat * 2 ^ 20) s =
          .ok (.created (c.image.capacityMib.toNat * 2 ^ 20)) after ∧
        after.machine.file? c.image.path = some (q, f) ∧ f.content.length = c.image.capacityMib.toNat * 2 ^ 20) ∧
    (2 ^ 43 ≤ c.image.capacityMib.toNat →
      ∃ e after, Container.ensure tools c.image.path (c.image.capacityMib.toNat * 2 ^ 20) s = .error e after) := by
  obtain ⟨n, hn⟩ := capacity_of_load hload
  obtain ⟨rfl, -⟩ := ImageSection.capacityBytes_eq_ok.1 hn
  obtain ⟨q, after, -, ⟨hcap, ⟨e, he⟩, -⟩ | ⟨hcap, hok, hf⟩⟩ :=
    Container.ensure_of_isFree hcreate hnew.isFree (c.image.capacityMib.toNat * 2 ^ 20)
  · have hlarge : 2 ^ 43 ≤ c.image.capacityMib.toNat := by
      unfold maxFileLength at hcap
      omega
    exact ⟨hn, fun hsmall => absurd hsmall (Nat.not_lt.2 hlarge), fun _ => ⟨e, after, he⟩⟩
  · have hsmall : c.image.capacityMib.toNat < 2 ^ 43 := by
      unfold maxFileLength at hcap
      omega
    exact ⟨hn, fun _ => ⟨after, q, _, hok, hf, Nat.zero_add _⟩, fun hlarge => absurd hsmall (Nat.not_lt.2 hlarge)⟩

/-- An image in the root could be a new file, where there is nothing of its name. -/
theorem couldBeNew_in_root {t : Tree} (hnone : t.node? ["disk.img"] = none) : t.CouldBeNew [] ⟨"/disk.img"⟩ :=
  ⟨⟨"/"⟩, "disk.img", [], by decide, by decide, ⟨⟨by decide, by decide, by decide⟩, by decide⟩, Or.inl rfl, hnone⟩

/-- Where there is no configuration, the image of 32 MiB is accepted, and its container is created. -/
theorem capacity_usable_sampleEmpty :
    load ⟨"/"⟩ none Container.sampleEmpty.machine = .ok (({} : Config).resolve ⟨"/"⟩) Container.sampleEmpty.machine ∧
      (Toolchain.idle ⟨"boot"⟩).create = Container.create ∧ Container.sampleEmpty.machine.tree.CouldBeNew [] ⟨"/disk.img"⟩ ∧
      ∃ after q f, Container.ensure (.idle ⟨"boot"⟩) ⟨"/disk.img"⟩ (32 * 2 ^ 20) Container.sampleEmpty = .ok (.created (32 * 2 ^ 20)) after ∧
        after.machine.file? ⟨"/disk.img"⟩ = some (q, f) ∧ f.content.length = 32 * 2 ^ 20 := by
  have hload : load ⟨"/"⟩ none Container.sampleEmpty.machine = .ok (({} : Config).resolve ⟨"/"⟩) Container.sampleEmpty.machine :=
    load_of_no_file (by decide +kernel)
  have hnew : Container.sampleEmpty.machine.tree.CouldBeNew [] ⟨"/disk.img"⟩ := couldBeNew_in_root rfl
  obtain ⟨-, hcreated, -⟩ := capacity_usable hload (.idle ⟨"boot"⟩) rfl Container.sampleEmpty hnew
  exact ⟨hload, rfl, hnew, hcreated (by decide)⟩

/-- A configuration that asks for an image of 2^63 bytes. -/
def oversizedText : String := "[image]\ncapacity_mib = 8796093022208\n"

/-- A session on a machine where there is that configuration and nothing else. -/
def sampleOversized : Session where
  machine :=
    { Container.sampleEmpty.machine with
      tree := ⟨[(["kernel-image.toml"], .file ⟨.ofList (Text.encode oversizedText), newFileMode, 0⟩)]⟩ }

/-- An image of 2^63 bytes is accepted and could be a new file, and its container is not created. -/
theorem capacity_oversized :
    ∃ c, load ⟨"/"⟩ none sampleOversized.machine = .ok c sampleOversized.machine ∧
      sampleOversized.machine.tree.CouldBeNew [] c.image.path ∧ c.image.capacityBytes = .ok (2 ^ 63) ∧
      ∀ after, Container.ensure (.idle ⟨"boot"⟩) c.image.path (2 ^ 63) sampleOversized ≠ .ok (.created (2 ^ 63)) after := by
  have hload : load ⟨"/"⟩ none sampleOversized.machine =
      .ok (resolve { image := { capacityMib := 8796093022208 } } ⟨"/"⟩) sampleOversized.machine :=
    load_of_textAt oversizedText (by decide +kernel)
  have hnew : sampleOversized.machine.tree.CouldBeNew [] ⟨"/disk.img"⟩ := couldBeNew_in_root rfl
  refine ⟨_, hload, hnew, ImageSection.capacityBytes_eq_ok.2 (by decide), fun after hcreated => ?_⟩
  have hcreate : (Toolchain.idle ⟨"boot"⟩).create = Container.create := rfl
  obtain ⟨q, s, -, ⟨-, ⟨e, he⟩, -⟩ | ⟨hcap, -⟩⟩ := Container.ensure_of_isFree hcreate hnew.isFree (2 ^ 63)
  · cases he.symm.trans hcreated
  · exact absurd hcap (by decide)

end Config

end BootDisk
