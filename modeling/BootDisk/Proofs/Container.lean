import BootDisk.Proofs.FileTree.Calls
import BootDisk.Proofs.Machine

/-!
# What becomes of the container

What the operations on the container do to the file that stands at its path (`Machine.file?`). `Ensured` says all that making sure of
the container can come to when the toolchain creates it natively, and `writeBlob_cases` all that writing a boot image into it can.
-/

namespace BootDisk

/-- The regular file that a path leads to on a machine, and its place. -/
def Machine.file? (m : Machine) (path : Path) : Option (Place × File) :=
  match m.tree.entry m.cwd path .through with
  | .ok (place, .file f) => some (place, f)
  | _ => none

namespace Machine

variable {m : Machine} {path : Path} {q : Place} {f g : File}

theorem file?_eq_some : m.file? path = some (q, f) ↔ m.tree.entry m.cwd path .through = .ok (q, .file f) := by
  unfold file?
  split
  · next place f' h => simp [h]
  · next h =>
    simp only [reduceCtorEq, false_iff]
    exact h q f

/-- Where a path leads to a file, it resolves to that file. -/
theorem stat_of_file? (h : m.file? path = some (q, f)) : m.tree.stat m.cwd path = .ok (.file f) :=
  Tree.stat_of_entry (file?_eq_some.1 h)

/-- A path leads to a file exactly when it resolves to one. -/
theorem file?_eq_none : m.file? path = none ↔ ∀ f, m.tree.stat m.cwd path ≠ .ok (.file f) := by
  constructor
  · intro h f hf
    obtain ⟨q, hq⟩ := Tree.stat_eq_ok.1 hf
    rw [file?_eq_some.2 hq] at h
    cases h
  · intro h
    cases hf : m.file? path with
    | none => rfl
    | some e => exact absurd (stat_of_file? hf) (h e.2)

/-- Paths that lead to one place lead to one file. -/
theorem eq_of_file? {path' : Path} (h : m.file? path = some (q, f)) (h' : m.file? path' = some (q, g)) : g = f := by
  have hf := (Tree.node?_of_entry (file?_eq_some.1 h)).1
  have hg := (Tree.node?_of_entry (file?_eq_some.1 h')).1
  cases hf.symm.trans hg
  rfl

/-- A file that is put in the place of the one a path leads to is the file that the path leads to then. -/
theorem file?_put (h : m.file? path = some (q, f)) (g : File) :
    ({ m with tree := m.tree.put q (.file g) } : Machine).file? path = some (q, g) := by
  have he := file?_eq_some.1 h
  refine file?_eq_some.2 (Tree.entry_of_agree he (Tree.agreeOff_put _ _ _) ?_)
  exact Tree.node?_put_self _ _ _ (Tree.node?_of_entry he).2

end Machine

namespace Container

variable {path : Path} {size capacity : Nat} {m : Machine} {s : Session}

/-! ## Creating -/

/-- A container as it is when it is made. -/
def new (size : Nat) : File :=
  { File.new newFileMode with content := .zeros size }

/-- Where nothing stands at the end of the path, an empty file is made there, and it is given the size if a file can have it. -/
theorem create_of_vacant {parent : Place} {name : String} (ha : m.tree.arrive m.cwd path .never = .ok (.vacant parent name false))
    (size : Nat) :
    ∃ t, m.tree.AgreeOff t (name :: parent) ∧
      ((maxFileLength < size ∧ (∃ e, create path size m = .error e { m with tree := t }) ∧
          ({ m with tree := t } : Machine).file? path = some (name :: parent, .new newFileMode)) ∨
        (size ≤ maxFileLength ∧ create path size m = .ok () { m with tree := t } ∧
          ({ m with tree := t } : Machine).file? path = some (name :: parent, new size))) := by
  have he : FileCall.openNew m.cwd path m.tree =
      .ok (name :: parent, .file (.new newFileMode)) (m.tree.put (name :: parent) (.file (.new newFileMode))) := by
    rw [FileCall.openNew, ha]
    rfl
  have hopen := during_eq_ok (a := .creatingContainer path).2 (Act.files_of_ok (fun cwd => FileCall.openNew cwd path) he)
  have hne : name :: parent ≠ [] := List.cons_ne_nil _ _
  have ha₁ := Tree.agreeOff_put m.tree (name :: parent) (.file (.new newFileMode))
  have hq₁ := Tree.node?_put_self m.tree (name :: parent) (.file (.new newFileMode)) hne
  generalize m.tree.put (name :: parent) (.file (.new newFileMode)) = t at hopen ha₁ hq₁
  by_cases hs : maxFileLength < size
  · refine ⟨t, ha₁, Or.inl ⟨hs, ⟨(Failure.ofIo .lengthTooLarge).during (.sizingContainer path size), ?_⟩, ?_⟩⟩
    · refine (bind_of_ok hopen).trans (during_of_error ?_)
      simp only [if_pos hs]
      rfl
    · exact Machine.file?_eq_some.2 (Tree.entry_of_vacant ha ha₁ hq₁ _)
  · have ha₂ := ha₁.trans (Tree.agreeOff_put t (name :: parent) (.file (new size)))
    refine ⟨t.put (name :: parent) (.file (new size)), ha₂, Or.inr ⟨Nat.le_of_not_lt hs, (bind_of_ok hopen).trans (during_eq_ok.2 ?_), ?_⟩⟩
    · simp only [if_neg hs]
      rfl
    · exact Machine.file?_eq_some.2 (Tree.entry_of_vacant ha ha₂ (Tree.node?_put_self _ _ _ hne) _)

/-- Creating a container fails and changes nothing, or leaves an empty file that cannot be given the size, or one of `size` zeros. -/
theorem create_cases (path : Path) (size : Nat) (m : Machine) :
    (∃ e, create path size m = .error e m) ∨
      ∃ q t, (maxFileLength < size ∧ (∃ e, create path size m = .error e { m with tree := t }) ∧
          ({ m with tree := t } : Machine).file? path = some (q, .new newFileMode)) ∨
        (size ≤ maxFileLength ∧ create path size m = .ok () { m with tree := t } ∧
          ({ m with tree := t } : Machine).file? path = some (q, new size)) := by
  rcases FileCall.openNew_cases m.cwd path m.tree with ⟨e, he⟩ | ⟨parent, name, ha, -⟩
  · exact Or.inl ⟨_, bind_of_error (during_of_error (Act.files_of_error (fun cwd => FileCall.openNew cwd path) he))⟩
  · obtain ⟨t, -, h⟩ := create_of_vacant ha size
    exact Or.inr ⟨name :: parent, t, h⟩

/-! ## Making sure of it -/

/-- Where the creation fails, making sure of the container does. -/
theorem ensure.create_of_error {tools : Toolchain} {e : Failure} (h : tools.create path capacity s.machine = .error e m) :
    ensure.create tools path capacity s = .error e ⟨m, s.calls ++ [.create path capacity]⟩ :=
  bind_of_error (Run.call_of_error h)

/-- Where the creation ends well, what stands at the path decides. -/
theorem ensure.create_of_ok {tools : Toolchain} {n : Node} (h : tools.create path capacity s.machine = .ok () m)
    (hn : m.tree.stat m.cwd path = .ok n) :
    ensure.create tools path capacity s =
      if lengthOf n = capacity then .ok (.created (lengthOf n)) ⟨m, s.calls ++ [.create path capacity]⟩
      else .error { cause := .containerSized path (lengthOf n) capacity } ⟨m, s.calls ++ [.create path capacity]⟩ := by
  refine (bind_of_ok (Run.call_of_ok h)).trans ?_
  refine (bind_of_ok (during_eq_ok.2 (Act.toRun_of_ok (Act.look_of_ok hn)))).trans ?_
  split <;> rfl

/-- All that making sure of the container can come to: a file that is there is used as it is, and where nothing is found the creation is
asked for, which leaves nothing, an empty file that could not be sized, or the container. -/
inductive Ensured (path : Path) (capacity : Nat) (s : Session) : EStateM.Result Failure Session State → Prop where
  | reused (q : Place) (f : File) : s.machine.file? path = some (q, f) → Ensured path capacity s (.ok (.reused f.content.length) s)
  | refused (e : Failure) : s.machine.file? path = none →
      s.machine.tree.stat s.machine.cwd path ≠ .error (.os .noEntry) → Ensured path capacity s (.error e s)
  | notCreated (e : Failure) : s.machine.tree.stat s.machine.cwd path = .error (.os .noEntry) →
      Ensured path capacity s (.error e { s with calls := s.calls ++ [.create path capacity] })
  | notSized (e : Failure) (q : Place) (m : Machine) : s.machine.tree.stat s.machine.cwd path = .error (.os .noEntry) →
      maxFileLength < capacity → m.file? path = some (q, .new newFileMode) →
      Ensured path capacity s (.error e ⟨m, s.calls ++ [.create path capacity]⟩)
  | created (q : Place) (m : Machine) : s.machine.tree.stat s.machine.cwd path = .error (.os .noEntry) →
      capacity ≤ maxFileLength → m.file? path = some (q, new capacity) →
      Ensured path capacity s (.ok (.created capacity) ⟨m, s.calls ++ [.create path capacity]⟩)

/-- Making sure of the container comes to nothing else, if the toolchain creates it natively. -/
theorem ensured (tools : Toolchain) (hcreate : tools.create = Container.create) (path : Path) (capacity : Nat) (s : Session) :
    Ensured path capacity s (ensure tools path capacity s) := by
  unfold ensure
  split
  · next f h =>
    obtain ⟨q, hq⟩ := Tree.stat_eq_ok.1 h
    exact .reused q f (Machine.file?_eq_some.2 hq)
  · next n hn h =>
    refine .refused _ (Machine.file?_eq_none.2 fun f hf => ?_) (by rw [h]; nofun)
    rw [h] at hf
    exact hn f (Except.ok.inj hf)
  · next h =>
    rcases create_cases path capacity s.machine with ⟨e, he⟩ | ⟨q, t, ⟨hs, ⟨e, he⟩, hf⟩ | ⟨hs, he, hf⟩⟩
    · rw [ensure.create_of_error (hcreate ▸ he)]
      exact .notCreated e h
    · rw [ensure.create_of_error (hcreate ▸ he)]
      exact .notSized e q _ h hs hf
    · rw [ensure.create_of_ok (hcreate ▸ he) (Machine.stat_of_file? hf)]
      have hlen : lengthOf (.file (new capacity)) = capacity := by simp [lengthOf, new, Content.zeros, Content.length]
      rw [if_pos hlen, hlen]
      exact .created q _ h hs hf
  · next e he h =>
    refine .refused _ (Machine.file?_eq_none.2 fun f hf => ?_) ?_
    · rw [h] at hf
      cases hf
    · rw [h]
      rintro h'
      exact he (Except.error.inj h')

/-! ## Writing into it -/

variable {q : Place} {f : File} {blob : Path}

/-- Writing a boot image into a container fails and changes nothing if the image cannot be read or is longer than the container. Any
other image is written over the start of the container. -/
theorem writeBlob_cases (h : m.file? path = some (q, f)) (blob : Path) :
    ((∀ image, m.tree.readAll m.cwd blob = .ok image → f.content.length < image.length) ∧ ∃ e, writeBlob path blob m = .error e m) ∨
      ∃ image, m.tree.readAll m.cwd blob = .ok image ∧ image.length ≤ f.content.length ∧
        writeBlob path blob m = .ok ⟨image.length, f.content.length⟩
          { m with tree := m.tree.put q (.file { f with content := image.overwrite f.content }) } := by
  unfold writeBlob
  cases hread : m.tree.readAll m.cwd blob with
  | error e => exact Or.inl ⟨nofun, _, bind_of_error (during_of_error (Act.look_of_error hread))⟩
  | ok image =>
    have hopen : m.tree.openWrite m.cwd path = .ok (q, .file f) := by
      rw [Tree.openWrite, Machine.file?_eq_some.1 h]
      rfl
    rw [bind_of_ok (during_eq_ok.2 (Act.look_of_ok hread)), bind_of_ok (during_eq_ok.2 (Act.look_of_ok hopen))]
    by_cases hl : f.content.length < image.length
    · refine Or.inl ⟨?_, { cause := .blobTooLong blob image.length path f.content.length }, ?_⟩
      · rintro image' h'
        rw [← Except.ok.inj h']
        exact hl
      · exact congrFun (if_pos hl) m
    · exact Or.inr ⟨image, rfl, Nat.le_of_not_lt hl, congrFun (if_neg hl) m⟩

end Container

end BootDisk
