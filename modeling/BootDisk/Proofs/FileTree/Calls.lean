import BootDisk.FileTree.Calls
import BootDisk.Proofs.FileTree.Walk
import BootDisk.Proofs.Machine

/-!
# What calls on the file tree do

One statement for each call says all that the call can do, and what it does is said by where a path arrives: the place, and what stands
there. The making of a row of directories is told by what it keeps (`Tree.GrowsBy`): it adds directories where nothing stood, and no
more.
-/

namespace BootDisk

namespace ExceptAux

/-- A result whose errors are told in other words is a value exactly when it was that value. -/
theorem mapError_eq_ok {ε ε' α : Type} {x : Except ε α} {f : ε → ε'} {v : α} : x.mapError f = .ok v ↔ x = .ok v := by
  cases x with
  | error e => exact ⟨nofun, nofun⟩
  | ok a => exact ⟨fun h => congrArg _ (Except.ok.inj h), fun h => congrArg _ (Except.ok.inj h)⟩

end ExceptAux

open ExceptAux

/-- A path that calls accept: not empty, not too long, and without the character that no call takes. -/
def Path.Accepted (p : Path) : Prop :=
  p.hasNul = false ∧ p.text ≠ "" ∧ p.text.utf8ByteSize ≤ maxPathBytes

/-- The first path is the second one, or is left of it when some of its last steps are given up. -/
inductive Path.OnWay : Path → Path → Prop where
  | whole (p : Path) : OnWay p p
  | part {p q r : Path} : p.parent? = some q → OnWay r q → OnWay r p

/-- A file as it is when it is made. -/
def File.new (mode : Nat) : File :=
  ⟨.empty, mode, 0⟩

namespace Tree

variable {t t' : Tree} {cwd : Place} {p : Path} {last : LastLink} {place q : Place} {n : Node}

/-! ## Looking -/

/-- A path arrives somewhere exactly when calls accept it and the walk along it ends there. -/
theorem arrive_eq_ok {a : Arrival} :
    t.arrive cwd p last = .ok a ↔ p.Accepted ∧ t.Walks last maxLinks (startOf cwd p) p.steps a := by
  unfold arrive walk Path.Accepted
  rw [← walkSteps_eq_ok]
  by_cases hz : p.hasNul = true
  · simp [hz]
  rw [if_neg hz, mapError_eq_ok]
  by_cases he : p.text = ""
  · simp [he]
  by_cases hl : maxPathBytes < p.text.utf8ByteSize
  · simp [he, hl, Nat.not_le.2 hl]
  simp [hz, he, hl, Nat.le_of_not_lt hl]

/-- What an arrival finds, the tree has there, unless it is a directory. -/
theorem node?_of_arrive {a : Arrival} (h : t.arrive cwd p last = .ok a) (hd : a.node? ≠ some .directory) :
    t.node? a.place = a.node? ∧ a.place ≠ [] :=
  ((arrive_eq_ok.1 h).2.node?).resolve_left hd

/-- A path has an entry exactly when it arrives at one, and at a directory if a slash follows. -/
theorem entry_eq_ok :
    t.entry cwd p last = .ok (place, n) ↔
      ∃ slash, t.arrive cwd p last = .ok (.found place n slash) ∧ (slash = true → n.isDirectory = true) := by
  unfold entry
  cases ha : t.arrive cwd p last with
  | error e => simp
  | ok a =>
    cases a with
    | vacant parent name slash => simp
    | found place' n' slash =>
      dsimp only
      by_cases hs : slash = true ∧ ¬ n'.isDirectory = true
      · rw [if_pos hs]
        constructor
        · nofun
        · rintro ⟨slash', h, hd⟩
          simp only [Except.ok.injEq, Arrival.found.injEq] at h
          obtain ⟨-, rfl, rfl⟩ := h
          exact absurd (hd hs.1) hs.2
      · rw [if_neg hs]
        simp only [Except.ok.injEq, Prod.mk.injEq, Arrival.found.injEq]
        constructor
        · rintro ⟨rfl, rfl⟩
          exact ⟨slash, ⟨rfl, rfl, rfl⟩, fun h => by simpa [h] using hs⟩
        · rintro ⟨slash', ⟨rfl, rfl, rfl⟩, -⟩
          exact ⟨rfl, rfl⟩

/-- What a path resolves to is what stands where it leads. -/
theorem stat_eq_ok : t.stat cwd p = .ok n ↔ ∃ place, t.entry cwd p .through = .ok (place, n) := by
  unfold stat
  cases t.entry cwd p .through with
  | error e => simp [Except.map]
  | ok e => simp [Except.map, Prod.ext_iff]

theorem stat_of_entry (h : t.entry cwd p .through = .ok (place, n)) : t.stat cwd p = .ok n :=
  stat_eq_ok.2 ⟨place, h⟩

/-- The entry of a file is in the tree. -/
theorem node?_of_entry {f : File} (h : t.entry cwd p last = .ok (place, .file f)) :
    t.node? place = some (.file f) ∧ place ≠ [] := by
  obtain ⟨slash, ha, -⟩ := entry_eq_ok.1 h
  exact node?_of_arrive ha nofun

/-! ## A change at one place -/

/-- A path that leads to a file leads to the file that takes its place. -/
theorem entry_of_agree {f g : File} (h : t.entry cwd p last = .ok (q, .file f)) (ha : AgreeOff t t' q)
    (hq : t'.node? q = some (.file g)) : t'.entry cwd p last = .ok (q, .file g) := by
  obtain ⟨slash, harr, hs⟩ := entry_eq_ok.1 h
  obtain ⟨hacc, hw⟩ := arrive_eq_ok.1 harr
  have hn := (node?_of_entry h).1
  have hslash : slash = false := by
    cases slash with
    | false => rfl
    | true => cases hs rfl
  subst hslash
  refine entry_eq_ok.2 ⟨false, arrive_eq_ok.2 ⟨hacc, ?_⟩, nofun⟩
  rcases hw.of_agree ha (isEnd_of_file hn) with hw' | ⟨-, -, h'⟩
  · -- the walk would end at the old file, which the new tree has only if it is the new one
    have hq' := (hw'.node?.resolve_left nofun).1
    change t'.node? q = some (.file f) at hq'
    rw [Option.some.inj (hq.symm.trans hq')]
    exact hw'
  · exact h' _ hq nofun

/-- A path that leads to where nothing stands leads to the file that is put there. -/
theorem entry_of_vacant {f : File} {parent : Place} {name : String} (h : t.arrive cwd p .never = .ok (.vacant parent name false))
    (ha : AgreeOff t t' (name :: parent)) (hq : t'.node? (name :: parent) = some (.file f)) (last : LastLink) :
    t'.entry cwd p last = .ok (name :: parent, .file f) := by
  obtain ⟨hacc, hw⟩ := arrive_eq_ok.1 h
  have hn : t.node? (name :: parent) = none := (node?_of_arrive h nofun).1
  refine entry_eq_ok.2 ⟨false, arrive_eq_ok.2 ⟨hacc, ?_⟩, nofun⟩
  rcases (hw.of_never (fun _ => nofun) last).of_agree ha (isEnd_of_none hn) with hw' | ⟨-, -, h'⟩
  · have hq' := (hw'.node?.resolve_left nofun).1
    change t'.node? (name :: parent) = none at hq'
    rw [hq] at hq'
    cases hq'
  · exact h' _ hq nofun

/-! ## New directories -/

/-- The second tree is the first with directories added where nothing stood. -/
def GrowsBy (t t' : Tree) : Prop :=
  ∀ q, t'.node? q = t.node? q ∨ (t.node? q = none ∧ t'.node? q = some .directory)

theorem GrowsBy.refl (t : Tree) : t.GrowsBy t :=
  fun _ => Or.inl rfl

theorem GrowsBy.trans {t'' : Tree} (h : t.GrowsBy t') (h' : t'.GrowsBy t'') : t.GrowsBy t'' := by
  intro q
  rcases h q with hq | ⟨hn, hq⟩
  · rcases h' q with hq' | ⟨hn', hq'⟩
    · exact Or.inl (hq'.trans hq)
    · exact Or.inr ⟨hq.symm.trans hn', hq'⟩
  · rcases h' q with hq' | ⟨hn', hq'⟩
    · exact Or.inr ⟨hn, hq'.trans hq⟩
    · rw [hq] at hn'
      cases hn'

end Tree

namespace FileCall

variable {t t' : Tree} {cwd : Place} {p : Path}

/-- Making a new file fails and changes nothing, or finds nothing at the path and puts an empty file there. -/
theorem openNew_cases (cwd : Place) (p : Path) (t : Tree) :
    (∃ e, openNew cwd p t = .error e t) ∨
      ∃ parent name, t.arrive cwd p .never = .ok (.vacant parent name false) ∧
        openNew cwd p t =
          .ok (name :: parent, .file (.new newFileMode)) (t.put (name :: parent) (.file (.new newFileMode))) := by
  unfold openNew
  cases t.arrive cwd p .never with
  | error e => exact Or.inl ⟨e, rfl⟩
  | ok a =>
    cases a with
    | found place n slash => exact Or.inl ⟨_, rfl⟩
    | vacant parent name slash =>
      cases slash with
      | true => exact Or.inl ⟨_, rfl⟩
      | false => exact Or.inr ⟨parent, name, rfl, rfl⟩

section Opening

variable {mode : Nat} {place parent : Place} {name : String} {n : Node} {slash : Bool}

theorem openCreate_of_error {e : IoError} (h : t.arrive cwd p .toCreate = .error e) : openCreate cwd p mode t = .error e t := by
  rw [openCreate, h]

theorem openCreate_of_vacant (h : t.arrive cwd p .toCreate = .ok (.vacant parent name false)) :
    openCreate cwd p mode t = .ok (name :: parent, .file (.new mode)) (t.put (name :: parent) (.file (.new mode))) := by
  rw [openCreate, h]
  rfl

theorem openCreate_of_found (mode : Nat) (h : t.arrive cwd p .toCreate = .ok (.found place n false)) (hn : n.isDirectory = false) :
    openCreate cwd p mode t = .ok (place, n) t := by
  rw [openCreate, h]
  simp [hn]

theorem openCreate_of_directory (h : t.arrive cwd p .toCreate = .ok (.found place .directory slash)) :
    openCreate cwd p mode t = .error (.os .isDirectory) t := by
  rw [openCreate, h]
  simp [Node.isDirectory]

/-- To open a file that cannot be opened changes nothing. -/
theorem openCreate_error {e : IoError} {t' : Tree} (h : openCreate cwd p mode t = .error e t') : t' = t := by
  unfold openCreate at h
  split at h
  · cases h
    rfl
  · split at h
    · cases h
      rfl
    · cases h
  · split at h
    · cases h
      rfl
    · cases h

/-- Nor is anything written then. -/
theorem writeAll_error {e : IoError} {c : Content} {t' : Tree} (h : writeAll cwd p c t = .error e t') : t' = t := by
  cases hopen : openCreate cwd p newFileMode t with
  | error e' u =>
    rw [writeAll, bind_of_error hopen] at h
    cases h
    exact openCreate_error hopen
  | ok opened u =>
    rw [writeAll, bind_of_ok hopen] at h
    cases h

end Opening

/-! ## Making directories -/

/-- Making a directory fails and changes nothing, or adds one where nothing stood. -/
theorem makeDirectory_cases (cwd : Place) (p : Path) (t : Tree) :
    (∃ e, makeDirectory cwd p t = .error e t) ∨ ∃ t', makeDirectory cwd p t = .ok () t' ∧ t.GrowsBy t' := by
  unfold makeDirectory
  cases ha : t.arrive cwd p .never with
  | error e => exact Or.inl ⟨e, rfl⟩
  | ok a =>
    cases a with
    | found place n slash => exact Or.inl ⟨_, rfl⟩
    | vacant parent name slash =>
      refine Or.inr ⟨_, rfl, fun q => ?_⟩
      by_cases hq : q = name :: parent
      · subst hq
        exact Or.inr ⟨(Tree.node?_of_arrive ha nofun).1, Tree.node?_put_self _ _ _ (List.cons_ne_nil _ _)⟩
      · exact Or.inl (Tree.node?_put_of_ne _ _ hq)

theorem endOf_ensureDirectory (cwd : Place) (p : Path) (t : Tree) :
    endOf (ensureDirectory cwd p t) = endOf (makeDirectory cwd p t) := by
  unfold ensureDirectory
  cases makeDirectory cwd p t with
  | ok v t' => rfl
  | error e t' =>
    dsimp only
    split
    · rfl
    · rfl

/-- What the making of one directory on the way keeps, the making of a directory and those above it keeps, also where it fails. The
induction is on the levels. -/
theorem makeDirectoriesUp_keeps {P : Tree → Prop} (levels : Nat) (p : Path)
    (hmake : ∀ q, q.OnWay p → ∀ t, P t → P (endOf (makeDirectory cwd q t))) (t : Tree) (h : P t) :
    P (endOf (makeDirectoriesUp cwd levels p t)) := by
  induction levels generalizing p t with
  | zero => exact h
  | succ levels ih =>
    have hone := hmake p (.whole p) t h
    unfold makeDirectoriesUp
    split
    · exact h
    · split
      · next t' h' =>
        rw [h'] at hone
        exact hone
      · next t' h' =>
        rw [h'] at hone
        split
        · exact hone
        · next q hq =>
          have hup := ih q (fun r hr => hmake r (.part hq hr)) t' hone
          split
          · next e' t'' h'' =>
            rw [h''] at hup
            exact hup
          · next t'' h'' =>
            rw [h''] at hup
            rw [endOf_ensureDirectory]
            exact hmake p (.whole p) t'' hup
      · next e' t' _ h' =>
        rw [h'] at hone
        split
        · exact hone
        · exact hone

theorem makeDirectories_keeps {P : Tree → Prop} (p : Path) (hmake : ∀ q, q.OnWay p → ∀ t, P t → P (endOf (makeDirectory cwd q t)))
    (t : Tree) (h : P t) : P (endOf (makeDirectories cwd p t)) :=
  makeDirectoriesUp_keeps _ p hmake t h

/-- Making a directory and those above it only adds directories, also where it fails. -/
theorem growsBy_makeDirectories (cwd : Place) (p : Path) (t : Tree) : t.GrowsBy (endOf (makeDirectories cwd p t)) := by
  refine makeDirectories_keeps (P := fun t' => t.GrowsBy t') p (fun q _ t' h => ?_) t (.refl t)
  rcases makeDirectory_cases cwd q t' with ⟨e, hm⟩ | ⟨t'', hm, hg⟩
  · rw [hm]
    exact h
  · rw [hm]
    exact h.trans hg

/-- Where the path resolves to a directory, there is nothing to make. -/
theorem makeDirectories_of_directory (h : t.isDirectory cwd p = true) : makeDirectories cwd p t = .ok () t := by
  obtain ⟨place, slash, harr⟩ : ∃ place slash, t.arrive cwd p .through = .ok (.found place .directory slash) := by
    have hdir := h
    unfold Tree.isDirectory at hdir
    split at hdir
    · next n hn =>
      cases n with
      | directory =>
        obtain ⟨place, he⟩ := Tree.stat_eq_ok.1 hn
        obtain ⟨slash, ha, -⟩ := Tree.entry_eq_ok.1 he
        exact ⟨place, slash, ha⟩
      | file f => cases hdir
      | link target => cases hdir
      | device => cases hdir
    · cases hdir
  obtain ⟨hacc, hw⟩ := Tree.arrive_eq_ok.1 harr
  obtain ⟨place', n', slash', hw'⟩ := hw.never_of_found
  have hmake : makeDirectory cwd p t = .error (.os .alreadyExists) t := by
    rw [makeDirectory, Tree.arrive_eq_ok.2 ⟨hacc, hw'⟩]
  rw [makeDirectories, makeDirectoriesUp]
  dsimp only
  rw [if_neg hacc.2.1, hmake]
  exact if_pos h

end FileCall

end BootDisk
