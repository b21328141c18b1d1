import BootDisk.Proofs.Container
import BootDisk.Proofs.FileTree.Writing

/-!
# Writing over the start

What the writing of a boot image does to the whole machine, whatever stands at the two paths. It ends well exactly when both lead to
regular files and the image is no longer than the container. Then the bytes behind the image, the length and the permission bits of the
container stay, and so does everything else there is; otherwise nothing has happened at all (`Container.writeBlob_exact`).
-/

namespace BootDisk

/-- What is opened for writing is what stands where the path leads. -/
theorem Tree.entry_of_openWrite {t : Tree} {cwd q : Place} {p : Path} {n : Node} (h : t.openWrite cwd p = .ok (q, n)) :
    t.entry cwd p .through = .ok (q, n) := by
  unfold Tree.openWrite at h
  split at h
  · cases h
  · next place n' he =>
    split at h
    · cases h
    · cases h
      exact he

namespace Container

variable {m : Machine} {container blob : Path} {q : Place} {old : File} {image : Content}

/-- What can be read is in a regular file, unless it comes from the device. -/
theorem file?_of_readAll (hblob : m.tree.stat m.cwd blob ≠ .ok .device) (h : m.tree.readAll m.cwd blob = .ok image) :
    ∃ r f, m.file? blob = some (r, f) ∧ f.content = image := by
  obtain ⟨r, n, he, hn⟩ := Tree.readAll_eq_ok.1 h
  cases n with
  | file f => exact ⟨r, f, Machine.file?_eq_some.2 he, Except.ok.inj hn⟩
  | directory => cases hn
  | link target => cases hn
  | device => exact absurd (Tree.stat_of_entry he) hblob

/-- The bytes of a regular file can be read. -/
theorem readAll_of_file? {r : Place} {f : File} (h : m.file? blob = some (r, f)) : m.tree.readAll m.cwd blob = .ok f.content :=
  Tree.readAll_of_entry (Machine.file?_eq_some.1 h)

/-- Where the container's path leads to no regular file, nothing is written: it cannot be opened, has no room, or cannot be flushed. -/
theorem writeBlob_of_no_file (h : m.file? container = none) (blob : Path) : ∃ e, writeBlob container blob m = .error e m := by
  unfold writeBlob
  cases hread : m.tree.readAll m.cwd blob with
  | error e => exact ⟨_, bind_of_error (during_of_error (Act.look_of_error hread))⟩
  | ok image =>
    rw [bind_of_ok (during_eq_ok.2 (Act.look_of_ok hread))]
    cases hopen : m.tree.openWrite m.cwd container with
    | error e => exact ⟨_, bind_of_error (during_of_error (Act.look_of_error hopen))⟩
    | ok opened =>
      obtain ⟨q, n⟩ := opened
      rw [bind_of_ok (during_eq_ok.2 (Act.look_of_ok hopen))]
      by_cases hl : lengthOf n < image.length
      · exact ⟨{ cause := .blobTooLong blob image.length container (lengthOf n) }, congrFun (if_pos hl) m⟩
      refine ⟨(Failure.ofIo (.os .invalidArgument)).during (.flushingContainer container), ?_⟩
      refine (congrFun (if_neg hl) m).trans ?_
      cases n with
      | file f => exact absurd (Machine.file?_eq_some.2 (Tree.entry_of_openWrite hopen)) (by rw [h]; nofun)
      | directory => rfl
      | link target => rfl
      | device => rfl

/-- Writing a boot image into a container, whatever stands at the two paths. It ends well exactly when both lead to regular files and the
image is no longer than the container. Then the container holds the image and behind it its own old bytes, with the length and the
permission bits it had, both lengths are told, and nothing else has changed; if the two are one file, its bytes are as they were. If it
fails nothing has changed, so that a container that is missing is missing still. The device, from which nothing can be read, is no boot
image. -/
theorem writeBlob_exact (m : Machine) (container blob : Path) (hblob : m.tree.stat m.cwd blob ≠ .ok .device) :
    ((∃ w m', writeBlob container blob m = .ok w m') ↔ ∃ q old r image,
      m.file? container = some (q, old) ∧ m.file? blob = some (r, image) ∧ image.content.length ≤ old.content.length) ∧
    (∀ w m', writeBlob container blob m = .ok w m' → ∃ q old r image new,
      m.file? container = some (q, old) ∧ m.file? blob = some (r, image) ∧ m'.file? container = some (q, new) ∧
      new.content.toList = image.content.toList ++ old.content.toList.drop image.content.length ∧
      new.content.length = old.content.length ∧ new.mode = old.mode ∧ w = ⟨image.content.length, new.content.length⟩ ∧
      m.tree.AgreeOff m'.tree q ∧ m' = { m with tree := m'.tree } ∧ (r = q → new.content.toList = old.content.toList)) ∧
    (∀ e m', writeBlob container blob m = .error e m' → m' = m) := by
  cases hold : m.file? container with
  | none =>
    obtain ⟨e, he⟩ := writeBlob_of_no_file hold blob
    simp [he]
  | some opened =>
    obtain ⟨q, old⟩ := opened
    rcases writeBlob_cases hold blob with ⟨hno, e, he⟩ | ⟨image, hread, hlen, hw⟩
    · refine ⟨⟨?_, ?_⟩, ?_, ?_⟩
      · rintro ⟨w, m', hw⟩
        cases he.symm.trans hw
      · rintro ⟨_, _, r, image, heq, himage, hlen⟩
        cases heq
        exact absurd hlen (Nat.not_le.2 (hno _ (readAll_of_file? himage)))
      · intro w m' hw
        cases he.symm.trans hw
      · intro e' m' he'
        cases he.symm.trans he'
        rfl
    · obtain ⟨r, f, hf, rfl⟩ := file?_of_readAll hblob hread
      refine ⟨⟨fun _ => ⟨q, old, r, f, rfl, hf, hlen⟩, fun _ => ⟨_, _, hw⟩⟩, ?_, ?_⟩
      · intro w m' hw'
        cases hw.symm.trans hw'
        have hnew := Content.length_overwrite hlen
        refine ⟨q, old, r, f, { old with content := f.content.overwrite old.content }, rfl, hf, Machine.file?_put hold _,
          Content.toList_overwrite _ _, hnew, rfl, by rw [hnew], Tree.agreeOff_put _ _ _, rfl, ?_⟩
        rintro rfl
        rw [Machine.eq_of_file? hold hf]
        exact Content.toList_overwrite_self _
      · intro e m' he
        cases hw.symm.trans he

/-- A machine on which a boot image of two bytes and, at the end of a link, a container of four are. -/
def sampleLinked : Machine where
  tree :=
    ⟨[(["boot"], .file ⟨.ofList [1, 2], newFileMode, 0⟩), (["dir"], .directory),
      (["img", "dir"], .file ⟨.ofList [5, 6, 7, 8], 0o600, 0⟩), (["disk"], .link ⟨"dir/img"⟩)]⟩
  cwd := []
  searchPath := ""
  home := ⟨""⟩
  clock := 0

/-- The image of the sample is written into the file that the link leads to. -/
theorem writeBlob_exact_sampleLinked :
    sampleLinked.tree.stat sampleLinked.cwd ⟨"boot"⟩ ≠ .ok .device ∧ ∃ w m' q new,
      writeBlob ⟨"disk"⟩ ⟨"boot"⟩ sampleLinked = .ok w m' ∧ w = ⟨2, 4⟩ ∧ m'.file? ⟨"disk"⟩ = some (q, new) ∧
      new.content.toList = [1, 2, 7, 8] := by
  have hdisk : sampleLinked.file? ⟨"disk"⟩ = some (["img", "dir"], ⟨.ofList [5, 6, 7, 8], 0o600, 0⟩) := by decide +kernel
  have hboot : sampleLinked.file? ⟨"boot"⟩ = some (["boot"], ⟨.ofList [1, 2], newFileMode, 0⟩) := by decide +kernel
  have hblob : sampleLinked.tree.stat sampleLinked.cwd ⟨"boot"⟩ ≠ .ok .device := by
    rw [Machine.stat_of_file? hboot]
    nofun
  obtain ⟨hiff, hok, -⟩ := writeBlob_exact sampleLinked ⟨"disk"⟩ ⟨"boot"⟩ hblob
  obtain ⟨w, m', hw⟩ := hiff.2 ⟨_, _, _, _, hdisk, hboot, by decide⟩
  obtain ⟨q, old, r, image, new, hold, himage, hnew, hbytes, hlen, -, rfl, -⟩ := hok w m' hw
  cases hdisk.symm.trans hold
  cases hboot.symm.trans himage
  exact ⟨hblob, _, m', _, new, hw, by rw [hlen]; rfl, hnew, hbytes⟩

end Container

end BootDisk
