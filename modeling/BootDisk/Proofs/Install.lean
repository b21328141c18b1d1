import BootDisk.Proofs.FileTree.Directory
import BootDisk.Proofs.Machine
import BootDisk.Staging.Install

/-!
# What installing does to the tree

Taking hold of an install path and copying a binary there change the tree at one place, the one under the name in the install directory.
`Held` and `CopiedIn` say all that the two can come to; what stands under a name, and where, is asked for by `Machine.seek`.
-/

namespace BootDisk

/-- What stands under a name in a directory: where its path leads when no link under the name is gone through. -/
def Machine.seek (m : Machine) (dir : Path) (n : String) : Except IoError Arrival :=
  m.tree.arrive m.cwd (dir.join ⟨n⟩) .never

/-- The directory's path leads down to the place. -/
def Machine.Reaches (m : Machine) (dir : Path) (d : Place) : Prop :=
  m.tree.Reaches m.cwd dir d

namespace Machine

variable {m m' : Machine} {dir : Path} {n : String} {d : Place} {a : Arrival} {q : Place}

theorem seek_eq_ok (hn : IsFileName n) : m.seek dir n = .ok a ↔ Tree.Nameable dir n ∧ ∃ d, m.Reaches dir d ∧ a = m.tree.under d n :=
  Tree.arrive_join hn rfl

/-- What is found under a name stands under it, in the directory that the path leads down to. -/
theorem of_seek (hn : IsFileName n) (h : m.seek dir n = .ok a) (hp : a.place = n :: d) :
    Tree.Nameable dir n ∧ m.Reaches dir d ∧ m.tree.node? (n :: d) = a.node? := by
  obtain ⟨hname, d', hd, rfl⟩ := (seek_eq_ok hn).1 h
  rw [Tree.place_under, List.cons.injEq] at hp
  obtain ⟨-, rfl⟩ := hp
  exact ⟨hname, hd, (Tree.node?_under _ _ _).symm⟩

end Machine

namespace Install

variable {m m' : Machine} {dir : Path} {n : String} {d : Place} {node : Node}

/-! ## Links -/

/-- A link under the name is taken away. -/
theorem removeLink_of_link (hn : IsFileName n) {target : Path} (h : m.seek dir n = .ok (.found (n :: d) (.link target) false)) :
    removeLink (dir.join ⟨n⟩) m = .ok () { m with tree := m.tree.erase (n :: d) } := by
  have hitself : m.tree.arrive m.cwd (dir.join ⟨n⟩) .itself = .ok (.found (n :: d) (.link target) false) :=
    (Tree.arrive_join hn rfl).2 ((Tree.arrive_join hn rfl).1 h)
  have hlink : m.tree.isLink m.cwd (dir.join ⟨n⟩) = true := by
    rw [Tree.isLink, Tree.entry_eq_ok.2 ⟨false, hitself, nofun⟩]
    rfl
  have hremove : FileCall.removeFile m.cwd (dir.join ⟨n⟩) m.tree = .ok () (m.tree.erase (n :: d)) := by
    rw [FileCall.removeFile, Tree.entry_eq_ok.2 ⟨false, h, nofun⟩]
  have hholds : Act.holds (fun t cwd => t.isLink cwd (dir.join ⟨n⟩)) m = .ok true m := by
    rw [Act.holds, hlink]
  exact (bind_of_ok hholds).trans (during_eq_ok.2 (Act.files_of_ok (fun cwd => FileCall.removeFile cwd (dir.join ⟨n⟩)) hremove))

/-- Where there is no link under the name, nothing is done. -/
theorem removeLink_of_no_link (hn : IsFileName n) (h : ∀ d target, m.seek dir n ≠ .ok (.found (n :: d) (.link target) false)) :
    removeLink (dir.join ⟨n⟩) m = .ok () m := by
  have hlink : m.tree.isLink m.cwd (dir.join ⟨n⟩) = false := by
    unfold Tree.isLink
    split
    · next place node hentry =>
      obtain ⟨slash, harr, -⟩ := Tree.entry_eq_ok.1 hentry
      obtain ⟨hname, d, hd, hunder⟩ := (Tree.arrive_join hn rfl).1 harr
      have hseek : m.seek dir n = .ok (.found place node slash) := (Tree.arrive_join hn rfl).2 ⟨hname, d, hd, hunder⟩
      cases node with
      | link target =>
        have hnode : m.tree.node? (n :: d) = some (.link target) := by
          rw [← Tree.node?_under, ← hunder]
          rfl
        exact absurd (hseek.trans (by rw [hunder, Tree.under_of_some hnode])) (h d target)
      | file f => rfl
      | directory => rfl
      | device => rfl
    · rfl
  have hholds : Act.holds (fun t cwd => t.isLink cwd (dir.join ⟨n⟩)) m = .ok false m := by
    rw [Act.holds, hlink]
  exact bind_of_ok hholds

/-! ## Taking hold -/

/-- All that taking hold of the path of a name can come to, by what stands under the name. -/
inductive Held (dir : Path) (n : String) (m : Machine) : EStateM.Result Failure Machine Unit → Prop where
  | lost (e : Failure) : (∀ a, m.seek dir n ≠ .ok a) → Held dir n m (.error e m)
  | refused (e : Failure) (d : Place) : m.seek dir n = .ok (.found (n :: d) .directory false) → Held dir n m (.error e m)
  | kept (d : Place) (node : Node) : m.seek dir n = .ok (.found (n :: d) node false) → node.isDirectory = false →
      node.isLink = false → Held dir n m (.ok () m)
  | made (d : Place) : m.seek dir n = .ok (.vacant d n false) →
      Held dir n m (.ok () { m with tree := m.tree.put (n :: d) (.file (.new newFileMode)) })
  | replaced (d : Place) (target : Path) : m.seek dir n = .ok (.found (n :: d) (.link target) false) →
      (m.tree.erase (n :: d)).Reaches m.cwd dir d →
      Held dir n m (.ok () { m with tree := (m.tree.erase (n :: d)).put (n :: d) (.file (.new newFileMode)) })
  | cutOff (e : Failure) (d : Place) (target : Path) : m.seek dir n = .ok (.found (n :: d) (.link target) false) →
      Held dir n m (.error e { m with tree := m.tree.erase (n :: d) })

/-- Where the way to the path is lost, it cannot be opened. -/
theorem openCreate_of_lost (hn : IsFileName n) {t : Tree} {cwd : Place} (mode : Nat)
    (h : ∀ a, t.arrive cwd (dir.join ⟨n⟩) .never ≠ .ok a) : ∃ e, FileCall.openCreate cwd (dir.join ⟨n⟩) mode t = .error e t := by
  cases harr : t.arrive cwd (dir.join ⟨n⟩) .toCreate with
  | error e => exact ⟨e, FileCall.openCreate_of_error harr⟩
  | ok a =>
    obtain ⟨hname, d, hd⟩ := Tree.reaches_of_arrive hn harr
    exact absurd ((Tree.arrive_join hn rfl).2 ⟨hname, d, hd, rfl⟩) (h _)

/-- Where nothing stands, a new file is made. -/
theorem openCreate_of_none (hn : IsFileName n) {t : Tree} {cwd : Place} (mode : Nat) (hname : Tree.Nameable dir n)
    (hd : t.Reaches cwd dir d) (h : t.node? (n :: d) = none) :
    FileCall.openCreate cwd (dir.join ⟨n⟩) mode t = .ok (n :: d, .file (.new mode)) (t.put (n :: d) (.file (.new mode))) := by
  have harr : t.arrive cwd (dir.join ⟨n⟩) .never = .ok (.vacant d n false) :=
    (Tree.arrive_join hn rfl).2 ⟨hname, d, hd, (Tree.under_of_none h).symm⟩
  exact FileCall.openCreate_of_vacant (Tree.arrive_of_no_link harr nofun .toCreate)

/-- After the opening the rest of taking hold is done. -/
theorem placeholder_of_ok (hlink : removeLink (dir.join ⟨n⟩) m = .ok () m') {e : Place × Node} {t : Tree}
    (h : FileCall.openCreate m'.cwd (dir.join ⟨n⟩) newFileMode m'.tree = .ok e t) :
    placeholder (dir.join ⟨n⟩) m = .ok () { m' with tree := t } :=
  (bind_of_ok hlink).trans (during_eq_ok.2 (bind_of_ok
    (Act.files_of_ok (fun cwd => FileCall.openCreate cwd (dir.join ⟨n⟩) newFileMode) h)))

theorem placeholder_of_error (hlink : removeLink (dir.join ⟨n⟩) m = .ok () m') {e : IoError} {t : Tree}
    (h : FileCall.openCreate m'.cwd (dir.join ⟨n⟩) newFileMode m'.tree = .error e t) :
    ∃ f, placeholder (dir.join ⟨n⟩) m = .error f { m' with tree := t } :=
  ⟨_, (bind_of_ok hlink).trans (during_of_error (bind_of_error
    (Act.files_of_error (fun cwd => FileCall.openCreate cwd (dir.join ⟨n⟩) newFileMode) h)))⟩

/-- Taking hold comes to nothing else. -/
theorem held (hn : IsFileName n) (dir : Path) (m : Machine) : Held dir n m (placeholder (dir.join ⟨n⟩) m) := by
  cases hseek : m.seek dir n with
  | error e =>
    have hno : ∀ a, m.seek dir n ≠ .ok a := by
      intro a
      rw [hseek]
      nofun
    obtain ⟨e', he⟩ := openCreate_of_lost hn newFileMode hno
    obtain ⟨f, hf⟩ := placeholder_of_error (removeLink_of_no_link hn fun _ _ => hno _) he
    rw [hf]
    exact .lost f hno
  | ok a =>
    obtain ⟨hname, d, hd, rfl⟩ := (Machine.seek_eq_ok hn).1 hseek
    cases hnode : m.tree.node? (n :: d) with
    | none =>
      rw [Tree.under_of_none hnode] at hseek
      have hlink : removeLink (dir.join ⟨n⟩) m = .ok () m := removeLink_of_no_link hn (by rw [hseek]; nofun)
      rw [placeholder_of_ok hlink (openCreate_of_none hn newFileMode hname hd hnode)]
      exact .made d hseek
    | some node =>
      rw [Tree.under_of_some hnode] at hseek
      cases node with
      | link target =>
        have hlink := removeLink_of_link hn hseek
        by_cases hr : (m.tree.erase (n :: d)).Reaches m.cwd dir d
        · have hnone := Tree.node?_erase_self m.tree (n :: d) (List.cons_ne_nil _ _)
          rw [placeholder_of_ok hlink (openCreate_of_none hn newFileMode hname hr hnone)]
          exact .replaced d target hseek hr
        · -- the way to the directory went through the link
          have hno : ∀ a, (m.tree.erase (n :: d)).arrive m.cwd (dir.join ⟨n⟩) .never ≠ .ok a := by
            intro a ha
            obtain ⟨-, d', hd', -⟩ := (Tree.arrive_join hn rfl).1 ha
            have hback := hd'.of_agree (Tree.agreeOff_erase m.tree (n :: d)).symm
              (Tree.isEnd_of_none (Tree.node?_erase_self m.tree (n :: d) (List.cons_ne_nil _ _)))
            cases hd.unique hback
            exact hr hd'
          obtain ⟨e', he⟩ := openCreate_of_lost hn newFileMode hno
          obtain ⟨f, hf⟩ := placeholder_of_error hlink he
          rw [hf]
          exact .cutOff f d target hseek
      | directory =>
        have hlink : removeLink (dir.join ⟨n⟩) m = .ok () m := removeLink_of_no_link hn (by rw [hseek]; nofun)
        obtain ⟨f, hf⟩ := placeholder_of_error hlink
          (FileCall.openCreate_of_directory (Tree.arrive_of_no_link hseek nofun .toCreate))
        rw [hf]
        exact .refused f d hseek
      | file g =>
        have hlink : removeLink (dir.join ⟨n⟩) m = .ok () m := removeLink_of_no_link hn (by rw [hseek]; nofun)
        rw [placeholder_of_ok hlink (FileCall.openCreate_of_found newFileMode (Tree.arrive_of_no_link hseek nofun .toCreate) rfl)]
        exact .kept d (.file g) hseek rfl rfl
      | device =>
        have hlink : removeLink (dir.join ⟨n⟩) m = .ok () m := removeLink_of_no_link hn (by rw [hseek]; nofun)
        rw [placeholder_of_ok hlink (FileCall.openCreate_of_found newFileMode (Tree.arrive_of_no_link hseek nofun .toCreate) rfl)]
        exact .kept d .device hseek rfl rfl

/-- What stands at a place that has been taken hold of, by what stood there: a file or a device stays, anything else is an empty file. -/
def heldNode : Option Node → Node
  | some (.file f) => .file f
  | some .device => .device
  | _ => .file (.new newFileMode)

theorem heldNode_eq_of_isEnd (hd : node.isDirectory = false) (hl : node.isLink = false) : heldNode (some node) = node := by
  cases node with
  | file f => rfl
  | device => rfl
  | directory => cases hd
  | link target => cases hl

/-- Taking hold that ends well changes what stands under the name, if that is nothing or a link, and nothing else. -/
theorem placeholder_ok (hn : IsFileName n) (h : placeholder (dir.join ⟨n⟩) m = .ok () m') :
    Tree.Nameable dir n ∧ ∃ d, m.Reaches dir d ∧ m'.Reaches dir d ∧ m'.cwd = m.cwd ∧ Tree.AgreeOff m.tree m'.tree (n :: d) ∧
      m.tree.node? (n :: d) ≠ some .directory ∧ m'.tree.node? (n :: d) = some (heldNode (m.tree.node? (n :: d))) := by
  have hheld := held hn dir m
  rw [h] at hheld
  cases hheld with
  | kept d node hseek hdir hlink =>
    obtain ⟨hname, hd, hnode⟩ := Machine.of_seek hn hseek rfl
    refine ⟨hname, d, hd, hd, rfl, fun _ _ => rfl, ?_, ?_⟩
    · rw [hnode]
      intro h
      cases Option.some.inj h
      cases hdir
    · rw [hnode]
      exact congrArg some (heldNode_eq_of_isEnd hdir hlink).symm
  | made d hseek =>
    obtain ⟨hname, hd, hnode⟩ := Machine.of_seek hn hseek rfl
    have ha := Tree.agreeOff_put m.tree (n :: d) (.file (.new newFileMode))
    refine ⟨hname, d, hd, hd.of_agree ha (Tree.isEnd_of_none hnode), rfl, ha, ?_, ?_⟩
    · rw [hnode]
      nofun
    · rw [hnode]
      exact Tree.node?_put_self _ _ _ (List.cons_ne_nil _ _)
  | replaced d target hseek hr =>
    obtain ⟨hname, hd, hnode⟩ := Machine.of_seek hn hseek rfl
    have he := Tree.node?_erase_self m.tree (n :: d) (List.cons_ne_nil _ _)
    have ha := Tree.agreeOff_put (m.tree.erase (n :: d)) (n :: d) (.file (.new newFileMode))
    refine ⟨hname, d, hd, hr.of_agree ha (Tree.isEnd_of_none he), rfl, (Tree.agreeOff_erase _ _).trans ha, ?_, ?_⟩
    · rw [hnode]
      nofun
    · rw [hnode]
      exact Tree.node?_put_self _ _ _ (List.cons_ne_nil _ _)

/-- Taking hold that fails changes nothing, or takes away a link that the way to the directory went through. -/
theorem placeholder_error (hn : IsFileName n) {e : Failure} (h : placeholder (dir.join ⟨n⟩) m = .error e m') :
    m' = m ∨ ∃ d target, Tree.Nameable dir n ∧ m.Reaches dir d ∧ m.tree.node? (n :: d) = some (.link target) ∧
      m' = { m with tree := m.tree.erase (n :: d) } := by
  have hheld := held hn dir m
  rw [h] at hheld
  cases hheld with
  | lost _ _ => exact Or.inl rfl
  | refused _ _ _ => exact Or.inl rfl
  | cutOff _ d target hseek =>
    obtain ⟨hname, hd, hnode⟩ := Machine.of_seek hn hseek rfl
    exact Or.inr ⟨d, target, hname, hd, hnode, rfl⟩

/-! ## Copying in -/

/-- A file is copied over a file: its bytes, unless it is the same file, and its permission bits. -/
theorem copy_to_file {t t' : Tree} {cwd origin place : Place} {binary path : Path} {f g : File}
    (hs : t.entry cwd binary .through = .ok (origin, .file f))
    (ho : FileCall.openCreate cwd path (Nat.land f.mode creationMask) t = .ok (place, .file g) t') :
    FileCall.copy cwd binary path t =
      .ok () (t'.put place (.file { g with content := if place = origin then .empty else f.content, mode := f.mode })) := by
  rw [FileCall.copy, hs]
  simp only [ho]

/-- What is copied to a device is gone. -/
theorem copy_to_device {t : Tree} {cwd origin place : Place} {binary path : Path} {f : File}
    (hs : t.entry cwd binary .through = .ok (origin, .file f))
    (ho : FileCall.openCreate cwd path (Nat.land f.mode creationMask) t = .ok (place, .device) t) :
    FileCall.copy cwd binary path t = .ok () t := by
  rw [FileCall.copy, hs]
  simp only [ho]

/-- Only a regular file can be copied. -/
theorem copy_of_no_file {t : Tree} {cwd : Place} {binary : Path} (path : Path)
    (h : ∀ origin f, t.entry cwd binary .through ≠ .ok (origin, .file f)) : ∃ e, FileCall.copy cwd binary path t = .error e t := by
  unfold FileCall.copy
  split
  · exact ⟨_, rfl⟩
  · next origin f hs => exact absurd hs (h origin f)
  · exact ⟨_, rfl⟩

/-- A file under the name is made executable. -/
theorem makeExecutable_of_file {path : Path} {q : Place} {f : File} (h : m.tree.entry m.cwd path .through = .ok (q, .file f)) :
    makeExecutable path m = .ok () { m with tree := m.tree.put q (.file { f with mode := Nat.lor f.mode executeBits }) } := by
  have hset : FileCall.setMode m.cwd path (Nat.lor f.mode executeBits) m.tree =
      .ok () (m.tree.put q (.file { f with mode := Nat.lor f.mode executeBits })) := by
    rw [FileCall.setMode, h]
  refine (bind_of_ok (during_eq_ok.2 (Act.look_of_ok (Tree.stat_of_entry h)))).trans ?_
  exact during_eq_ok.2 (Act.files_of_ok (fun cwd => FileCall.setMode cwd path (Nat.lor f.mode executeBits)) hset)

/-- A device under the name is left as it is. -/
theorem makeExecutable_of_device {path : Path} {q : Place} (h : m.tree.entry m.cwd path .through = .ok (q, .device)) :
    makeExecutable path m = .ok () m := by
  have hset : FileCall.setMode m.cwd path (Nat.lor 0 executeBits) m.tree = .ok () m.tree := by
    rw [FileCall.setMode, h]
  refine (bind_of_ok (during_eq_ok.2 (Act.look_of_ok (Tree.stat_of_entry h)))).trans ?_
  exact during_eq_ok.2 (Act.files_of_ok (fun cwd => FileCall.setMode cwd path (Nat.lor 0 executeBits)) hset)

/-- What stands under the name after a file has been copied in over what stood there. -/
def installed (place origin : Place) (f : File) : Node → Node
  | .file g => .file ⟨if place = origin then .empty else f.content, Nat.lor f.mode executeBits, g.modified⟩
  | node => node

/-- Copying a binary in, over a file or a device, fails and changes nothing if the binary is no regular file. It ends well for any other,
and what stands under the name is all that changes. -/
theorem copyIn_cases (hn : IsFileName n) (hname : Tree.Nameable dir n) (hd : m.Reaches dir d) (hnode : m.tree.node? (n :: d) = some node)
    (hdir : node.isDirectory = false) (hlink : node.isLink = false) (binary : Path) :
    ((∀ origin f, m.tree.entry m.cwd binary .through ≠ .ok (origin, .file f)) ∧ ∃ e, copyIn binary (dir.join ⟨n⟩) m = .error e m) ∨
      ∃ origin f m', m.tree.entry m.cwd binary .through = .ok (origin, .file f) ∧ copyIn binary (dir.join ⟨n⟩) m = .ok () m' ∧
        m'.cwd = m.cwd ∧ Tree.AgreeOff m.tree m'.tree (n :: d) ∧ m'.Reaches dir d ∧
        m'.tree.node? (n :: d) = some (installed (n :: d) origin f node) := by
  have hseek : m.seek dir n = .ok (.found (n :: d) node false) :=
    (Machine.seek_eq_ok hn).2 ⟨hname, d, hd, (Tree.under_of_some hnode).symm⟩
  have hno : removeLink (dir.join ⟨n⟩) m = .ok () m := by
    refine removeLink_of_no_link hn fun d' target h => ?_
    rw [hseek] at h
    cases h
    cases hlink
  by_cases hs : ∃ origin f, m.tree.entry m.cwd binary .through = .ok (origin, .file f)
  · obtain ⟨origin, f, hs⟩ := hs
    refine Or.inr ⟨origin, f, ?_⟩
    have ho := FileCall.openCreate_of_found (Nat.land f.mode creationMask) (Tree.arrive_of_no_link hseek (by
      intro target h
      cases Option.some.inj h
      cases hlink) .toCreate) hdir
    cases node with
    | directory => cases hdir
    | link target => cases hlink
    | device =>
      have hcopy := Act.files_of_ok (fun cwd => FileCall.copy cwd binary (dir.join ⟨n⟩)) (copy_to_device hs ho)
      have hexec := makeExecutable_of_device (Tree.entry_eq_ok.2 ⟨false, Tree.arrive_of_no_link hseek nofun .through, nofun⟩)
      exact ⟨m, hs, (bind_of_ok hno).trans ((bind_of_ok (during_eq_ok.2 hcopy)).trans hexec), rfl, fun _ _ => rfl, hd, hnode⟩
    | file g =>
      have hcopy := Act.files_of_ok (fun cwd => FileCall.copy cwd binary (dir.join ⟨n⟩)) (copy_to_file hs ho)
      have hentry : m.tree.entry m.cwd (dir.join ⟨n⟩) .through = .ok (n :: d, .file g) :=
        Tree.entry_eq_ok.2 ⟨false, Tree.arrive_of_no_link hseek nofun .through, nofun⟩
      have ha := Tree.agreeOff_put m.tree (n :: d)
        (.file { g with content := if n :: d = origin then .empty else f.content, mode := f.mode })
      have hentry' := Tree.entry_of_agree hentry ha (Tree.node?_put_self _ _ _ (List.cons_ne_nil _ _))
      generalize m.tree.put (n :: d) (.file { g with content := if n :: d = origin then .empty else f.content, mode := f.mode }) = t
        at hcopy ha hentry'
      have hexec := makeExecutable_of_file (m := { m with tree := t }) hentry'
      have ha' := ha.trans (Tree.agreeOff_put t (n :: d)
        (.file ⟨if n :: d = origin then .empty else f.content, Nat.lor f.mode executeBits, g.modified⟩))
      exact ⟨_, hs, (bind_of_ok hno).trans ((bind_of_ok (during_eq_ok.2 hcopy)).trans hexec), rfl, ha',
        hd.of_agree ha' (Tree.isEnd_of_file hnode), Tree.node?_put_self _ _ _ (List.cons_ne_nil _ _)⟩
  · have hs : ∀ origin f, m.tree.entry m.cwd binary .through ≠ .ok (origin, .file f) := fun origin f h => hs ⟨origin, f, h⟩
    obtain ⟨e, he⟩ := copy_of_no_file (dir.join ⟨n⟩) hs
    exact Or.inl ⟨hs, _, (bind_of_ok hno).trans (bind_of_error (during_of_error
      (Act.files_of_error (fun cwd => FileCall.copy cwd binary (dir.join ⟨n⟩)) he)))⟩

end Install

end BootDisk
