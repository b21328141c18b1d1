import Mathlib.Algebra.Group.Nat.Defs
import BootDisk.Proofs.Container
import BootDisk.Proofs.FileTree.Directory

/-!
# Creating a container, all or nothing

What making sure of a container leaves where there was none. A container is made in two steps, an empty file first and its size then,
and only the second looks at the size. So where a new file can be made (`Tree.IsFree`) and no file can be so long, the empty file stays,
and every later run takes it for the container (`Container.ensure_settled_iff`); in all other cases there is nothing then, or the whole
container.
-/

namespace BootDisk

namespace Tree

/-- A new file can be made at a path: it leads to where nothing stands, not even a link, and no slash follows. -/
def IsFree (t : Tree) (cwd : Place) (p : Path) : Prop :=
  ∃ parent name, t.arrive cwd p .never = .ok (.vacant parent name false)

/-- Nothing is found where a new file can be made. -/
theorem IsFree.stat {t : Tree} {cwd : Place} {p : Path} (h : t.IsFree cwd p) : t.stat cwd p = .error (.os .noEntry) := by
  obtain ⟨parent, name, harr⟩ := h
  rw [Tree.stat, entry, arrive_of_no_link harr nofun .through]
  rfl

end Tree

namespace Container

variable {tools : Toolchain} {path : Path} {capacity : Nat} {m : Machine} {s s' : Session}

/-- Where no new file can be made, creating a container changes nothing. -/
theorem create_of_not_isFree (h : ¬ m.tree.IsFree m.cwd path) (size : Nat) : ∃ e, create path size m = .error e m := by
  rcases FileCall.openNew_cases m.cwd path m.tree with ⟨e, he⟩ | ⟨parent, name, ha, -⟩
  · exact ⟨_, bind_of_error (during_of_error (Act.files_of_error (fun cwd => FileCall.openNew cwd path) he))⟩
  · exact absurd ⟨parent, name, ha⟩ h

/-- Where nothing is found, making sure of a container is creating it. -/
theorem ensure_of_noEntry (tools : Toolchain) (h : s.machine.tree.stat s.machine.cwd path = .error (.os .noEntry)) (capacity : Nat) :
    ensure tools path capacity s = ensure.create tools path capacity s := by
  rw [ensure, h]

/-- Where the path cannot be walked to its end, there is nothing to make sure of. -/
theorem ensure_of_error (tools : Toolchain) {e : IoError} (h : s.machine.tree.stat s.machine.cwd path = .error e) (he : e ≠ .os .noEntry)
    (capacity : Nat) : ∃ f, ensure tools path capacity s = .error f s := by
  refine ⟨{ activities := [.inspectingContainer path], cause := .io e }, ?_⟩
  rw [ensure, h]
  split
  · next heq => cases heq
  · next heq => cases heq
  · next heq =>
    cases heq
    exact absurd rfl he
  · next heq =>
    cases heq
    rfl

/-- Where no new file can be made and nothing stands, making sure of a container fails and changes nothing. -/
theorem ensure_of_not_isFree (hcreate : tools.create = create) (hnone : ∀ n, s.machine.tree.stat s.machine.cwd path ≠ .ok n)
    (h : ¬ s.machine.tree.IsFree s.machine.cwd path) (capacity : Nat) :
    ∃ e s', ensure tools path capacity s = .error e s' ∧ s'.machine = s.machine := by
  cases hstat : s.machine.tree.stat s.machine.cwd path with
  | ok n => exact absurd hstat (hnone n)
  | error e =>
    by_cases hno : e = .os .noEntry
    · obtain ⟨e', he'⟩ := create_of_not_isFree h capacity
      rw [ensure_of_noEntry tools (hno ▸ hstat) capacity, ensure.create_of_error (hcreate ▸ he')]
      exact ⟨e', _, rfl, rfl⟩
    · obtain ⟨f, hf⟩ := ensure_of_error tools hstat hno capacity
      exact ⟨f, s, hf, rfl⟩

/-- Where a new file can be made, making sure of a container makes one there, and changes nothing else: an empty file if no file can be so
long, and otherwise the container. -/
theorem ensure_of_isFree (hcreate : tools.create = create) (h : s.machine.tree.IsFree s.machine.cwd path) (capacity : Nat) :
    ∃ q s', s.machine.tree.AgreeOff s'.machine.tree q ∧
      ((maxFileLength < capacity ∧ (∃ e, ensure tools path capacity s = .error e s') ∧
          s'.machine.file? path = some (q, .new newFileMode)) ∨
        (capacity ≤ maxFileLength ∧ ensure tools path capacity s = .ok (.created capacity) s' ∧
          s'.machine.file? path = some (q, new capacity))) := by
  obtain ⟨parent, name, ha⟩ := h
  obtain ⟨t, hagree, ⟨hs, ⟨e, he⟩, hf⟩ | ⟨hs, he, hf⟩⟩ := create_of_vacant ha capacity
  · refine ⟨name :: parent, ⟨{ s.machine with tree := t }, s.calls ++ [.create path capacity]⟩, hagree, Or.inl ⟨hs, ⟨e, ?_⟩, hf⟩⟩
    rw [ensure_of_noEntry tools (Tree.IsFree.stat ⟨parent, name, ha⟩) capacity]
    exact ensure.create_of_error (hcreate ▸ he)
  · refine ⟨name :: parent, ⟨{ s.machine with tree := t }, s.calls ++ [.create path capacity]⟩, hagree, Or.inr ⟨hs, ?_, hf⟩⟩
    have hlen : lengthOf (.file (new capacity)) = capacity := by simp [lengthOf, new, Content.zeros, Content.length]
    rw [ensure_of_noEntry tools (Tree.IsFree.stat ⟨parent, name, ha⟩) capacity,
      ensure.create_of_ok (hcreate ▸ he) (Machine.stat_of_file? hf), if_pos hlen, hlen]

/-! ## All or nothing -/

/-- Nothing is there and the tree is as it was, or a regular file of exactly the capacity is there. -/
def Settled (path : Path) (capacity : Nat) (before after : Machine) : Prop :=
  ((∀ n, after.tree.stat after.cwd path ≠ .ok n) ∧ after.tree = before.tree) ∨
    ∃ q f, after.file? path = some (q, f) ∧ f.content.length = capacity

/-- A file that is there is used as it is. -/
theorem ensure_of_file? (tools : Toolchain) {q : Place} {f : File} (h : s.machine.file? path = some (q, f)) (capacity : Nat) :
    ensure tools path capacity s = .ok (.reused f.content.length) s := by
  rw [ensure, Machine.stat_of_file? h]

/-- What is used as it is was there. -/
theorem file?_of_reused (hcreate : tools.create = create) {n : Nat} (h : ensure tools path capacity s = .ok (.reused n) s') :
    ∃ q f, s.machine.file? path = some (q, f) ∧ f.content.length = n := by
  have hens := ensured tools hcreate path capacity s
  rw [h] at hens
  cases hens with
  | reused q f hf => exact ⟨q, f, hf, rfl⟩

/-- An empty file is no container of any capacity that no file can have. -/
theorem not_settled_of_leftover {before after : Machine} {q : Place} (hcap : maxFileLength < capacity)
    (hf : after.file? path = some (q, .new newFileMode)) : ¬ Settled path capacity before after := by
  rintro (⟨hnone, -⟩ | ⟨q', f, hf', hlen⟩)
  · exact hnone _ (Machine.stat_of_file? hf)
  · cases hf.symm.trans hf'
    change 0 = capacity at hlen
    omega

/-- All that making sure of a container can come to where nothing is found: the whole container, an empty file that cannot be given the
size, or nothing at all. -/
theorem ensure_where_none (hcreate : tools.create = create) (hnone : ∀ n, s.machine.tree.stat s.machine.cwd path ≠ .ok n)
    (hafter : endOf (ensure tools path capacity s) = s') :
    (s.machine.tree.IsFree s.machine.cwd path ∧ capacity ≤ maxFileLength ∧ ensure tools path capacity s = .ok (.created capacity) s' ∧
        ∃ q, s'.machine.file? path = some (q, new capacity)) ∨
      (s.machine.tree.IsFree s.machine.cwd path ∧ maxFileLength < capacity ∧ (∃ e, ensure tools path capacity s = .error e s') ∧
        ∃ q, s'.machine.file? path = some (q, .new newFileMode)) ∨
      (¬ s.machine.tree.IsFree s.machine.cwd path ∧ (∃ e, ensure tools path capacity s = .error e s') ∧ s'.machine = s.machine) := by
  by_cases hfree : s.machine.tree.IsFree s.machine.cwd path
  · obtain ⟨q, s₁, -, ⟨hcap, ⟨e, he⟩, hf⟩ | ⟨hcap, he, hf⟩⟩ := ensure_of_isFree hcreate hfree capacity
    · rw [he] at hafter
      subst hafter
      exact Or.inr (Or.inl ⟨hfree, hcap, ⟨e, he⟩, q, hf⟩)
    · rw [he] at hafter
      subst hafter
      exact Or.inl ⟨hfree, hcap, he, q, hf⟩
  · obtain ⟨e, s₁, he, hm⟩ := ensure_of_not_isFree hcreate hnone hfree capacity
    rw [he] at hafter
    subst hafter
    exact Or.inr (Or.inr ⟨hfree, ⟨e, he⟩, hm⟩)

/-- What is left settled holds no container of another length. -/
theorem eq_capacity_of_settled {before after : Machine} {q : Place} {f : File} (h : Settled path capacity before after)
    (hf : after.file? path = some (q, f)) : f.content.length = capacity := by
  rcases h with ⟨hnone, -⟩ | ⟨q', f', hf', hlen⟩
  · exact absurd (Machine.stat_of_file? hf) (hnone _)
  · cases hf.symm.trans hf'
    exact hlen

/-- Where nothing was at the path, making sure of a container ends well exactly if a new file can be made there and a file can have the
capacity, and leaves all or nothing exactly if a file can have it or no new file can be made. If it does, the same done later in the same
tree never finds a container of another length. If it does not, it has failed and left an empty file, which from then on is taken for the
container, and in which there is room for no boot image but an empty one. -/
theorem ensure_settled_iff (tools : Toolchain) (hcreate : tools.create = create) (path : Path) (capacity : Nat) (s after : Session)
    (hnone : ∀ n, s.machine.tree.stat s.machine.cwd path ≠ .ok n) (hafter : endOf (ensure tools path capacity s) = after) :
    (ensure tools path capacity s = .ok (.created capacity) after ↔
      s.machine.tree.IsFree s.machine.cwd path ∧ capacity ≤ maxFileLength) ∧
    (Settled path capacity s.machine after.machine ↔ capacity ≤ maxFileLength ∨ ¬ s.machine.tree.IsFree s.machine.cwd path) ∧
    (Settled path capacity s.machine after.machine →
      ∀ s', s'.machine.tree = after.machine.tree → s'.machine.cwd = after.machine.cwd →
        ∀ n s'', ensure tools path capacity s' = .ok (.reused n) s'' → n = capacity) ∧
    (¬ Settled path capacity s.machine after.machine → (∃ e, ensure tools path capacity s = .error e after) ∧
      ∀ s', s'.machine.tree = after.machine.tree → s'.machine.cwd = after.machine.cwd →
        ensure tools path capacity s' = .ok (.reused 0) s' ∧
        ∀ blob image, s'.machine.tree.readAll s'.machine.cwd blob = .ok image → 0 < image.length →
          ∃ e, writeBlob path blob s'.machine = .error e s'.machine) := by
  have hlook {s' : Session} (htree : s'.machine.tree = after.machine.tree) (hcwd : s'.machine.cwd = after.machine.cwd) :
      s'.machine.file? path = after.machine.file? path := by
    unfold Machine.file?
    rw [htree, hcwd]
  have hlater (hsettled : Settled path capacity s.machine after.machine) (s' : Session) (htree : s'.machine.tree = after.machine.tree)
      (hcwd : s'.machine.cwd = after.machine.cwd) (n : Nat) (s'' : Session) (h : ensure tools path capacity s' = .ok (.reused n) s'') :
      n = capacity := by
    obtain ⟨q, f, hf, rfl⟩ := file?_of_reused hcreate h
    exact eq_capacity_of_settled hsettled ((hlook htree hcwd).symm.trans hf)
  rcases ensure_where_none hcreate hnone hafter with
    ⟨hfree, hcap, hok, q, hf⟩ | ⟨hfree, hcap, ⟨e, he⟩, q, hf⟩ | ⟨hfree, ⟨e, he⟩, hm⟩
  · have hsettled : Settled path capacity s.machine after.machine := Or.inr ⟨q, _, hf, Nat.zero_add capacity⟩
    exact ⟨iff_of_true hok ⟨hfree, hcap⟩, iff_of_true hsettled (Or.inl hcap), hlater, fun hnot => absurd hsettled hnot⟩
  · have hnot : ¬ Settled path capacity s.machine after.machine := not_settled_of_leftover hcap hf
    refine ⟨iff_of_false (by rw [he]; nofun) fun h => Nat.not_lt.2 h.2 hcap, iff_of_false hnot ?_, hlater,
      fun _ => ⟨⟨e, he⟩, fun s' htree hcwd => ?_⟩⟩
    · rintro (hcap' | hfree')
      · exact Nat.not_lt.2 hcap' hcap
      · exact hfree' hfree
    · have hf' := (hlook htree hcwd).trans hf
      refine ⟨ensure_of_file? tools hf' capacity, fun blob image hread hpos => ?_⟩
      rcases writeBlob_cases hf' blob with ⟨-, h⟩ | ⟨image', hread', hlen, -⟩
      · exact h
      · cases hread.symm.trans hread'
        exact absurd hpos (Nat.not_lt.2 hlen)
  · have hsettled : Settled path capacity s.machine after.machine := by
      refine Or.inl ?_
      rw [hm]
      exact ⟨hnone, rfl⟩
    exact ⟨iff_of_false (by rw [he]; nofun) fun h => hfree h.1, iff_of_true hsettled (Or.inr hfree), hlater,
      fun hnot => absurd hsettled hnot⟩

/-- A session on a machine where there is nothing. -/
def sampleEmpty : Session where
  machine := { tree := ⟨[]⟩, cwd := [], searchPath := "", home := ⟨""⟩, clock := 0 }

theorem stat_sampleEmpty (n : Node) : sampleEmpty.machine.tree.stat sampleEmpty.machine.cwd ⟨"disk.img"⟩ ≠ .ok n := by
  have hnone : (sampleEmpty.machine.tree.stat sampleEmpty.machine.cwd ⟨"disk.img"⟩).toOption = none := by decide +kernel
  intro h
  rw [h] at hnone
  cases hnone

/-- In the sample a container of four bytes is made, and nothing later finds another one. -/
theorem ensure_settled_iff_sampleEmpty :
    (Toolchain.idle ⟨"boot"⟩).create = create ∧ (∀ n, sampleEmpty.machine.tree.stat sampleEmpty.machine.cwd ⟨"disk.img"⟩ ≠ .ok n) ∧
      ∃ after, endOf (ensure (.idle ⟨"boot"⟩) ⟨"disk.img"⟩ 4 sampleEmpty) = after ∧
        Settled ⟨"disk.img"⟩ 4 sampleEmpty.machine after.machine ∧
        ∀ n s, ensure (.idle ⟨"boot"⟩) ⟨"disk.img"⟩ 4 after = .ok (.reused n) s → n = 4 := by
  obtain ⟨-, hiff, hlater, -⟩ := ensure_settled_iff (.idle ⟨"boot"⟩) rfl ⟨"disk.img"⟩ 4 sampleEmpty _ stat_sampleEmpty rfl
  have hsettled := hiff.2 (Or.inl (by decide))
  exact ⟨rfl, stat_sampleEmpty, _, rfl, hsettled, hlater hsettled _ rfl rfl⟩

/-- A capacity of 2^63 bytes leaves an empty file in the sample, and that is then the container. -/
theorem ensure_oversized :
    (∀ n, sampleEmpty.machine.tree.stat sampleEmpty.machine.cwd ⟨"disk.img"⟩ ≠ .ok n) ∧
      ∃ after, endOf (ensure (.idle ⟨"boot"⟩) ⟨"disk.img"⟩ (2 ^ 63) sampleEmpty) = after ∧
        ¬ Settled ⟨"disk.img"⟩ (2 ^ 63) sampleEmpty.machine after.machine ∧
        ensure (.idle ⟨"boot"⟩) ⟨"disk.img"⟩ (2 ^ 63) after = .ok (.reused 0) after := by
  have hleft : (endOf (ensure (.idle ⟨"boot"⟩) ⟨"disk.img"⟩ (2 ^ 63) sampleEmpty)).machine.file? ⟨"disk.img"⟩ =
      some (["disk.img"], .new newFileMode) := by decide +kernel
  exact ⟨stat_sampleEmpty, _, rfl, not_settled_of_leftover (by decide) hleft, ensure_of_file? _ hleft _⟩

end Container

end BootDisk
