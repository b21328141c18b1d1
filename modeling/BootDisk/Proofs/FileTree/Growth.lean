import BootDisk.Proofs.FileTree.Calls

/-!
# Directories on the way to a path

What the making of a directory and of those above it adds to a tree: directories where nothing stood, each of which the path or a path on
the way to it leads to (`Tree.GrowsAlong`). What a walk finds, it finds also when directories have been added, so that one directory after
the other can be told by where its path leads in the end.
-/

namespace BootDisk

namespace Tree

variable {t t' t'' : Tree} {cwd q : Place} {dir p : Path} {last : LastLink} {links : Nat} {here : Place} {rest : List Step} {a : Arrival}
variable {n : Node}

/-- Something that is there stays when directories are added. -/
theorem GrowsBy.node? (h : t.GrowsBy t') (hq : t.node? q = some n) : t'.node? q = some n := by
  rcases h q with hsame | ⟨hnone, -⟩
  · exact hsame.trans hq
  · rw [hq] at hnone
    cases hnone

/-- A walk that finds something finds it also when directories have been added. -/
theorem Walks.of_growsBy (hg : t.GrowsBy t') (h : t.Walks last links here rest a) (ha : a.node? ≠ none) :
    t'.Walks last links here rest a := by
  induction h with
  | done links here => exact .done links here
  | here _ ih => exact .here (ih ha)
  | slash _ ih => exact .slash (ih ha)
  | up _ ih => exact .up (ih ha)
  | missing _ _ _ => exact absurd rfl ha
  | stop hs he hn hl => exact .stop hs he (hg.node? hn) hl
  | enter hs he hn _ ih => exact .enter hs he (hg.node? hn) (ih ha)
  | follow hs hn hfl _ ih => exact .follow hs (hg.node? hn) hfl (ih ha)

theorem entry_of_growsBy (hg : t.GrowsBy t') (h : t.entry cwd p last = .ok (q, n)) : t'.entry cwd p last = .ok (q, n) := by
  obtain ⟨slash, harr, hs⟩ := entry_eq_ok.1 h
  obtain ⟨hacc, hw⟩ := arrive_eq_ok.1 harr
  exact entry_eq_ok.2 ⟨slash, arrive_eq_ok.2 ⟨hacc, hw.of_growsBy hg nofun⟩, hs⟩

/-- The second tree is the first with directories added where nothing stood, each of them one that a path on the way to `dir` leads to. -/
def GrowsAlong (t t' : Tree) (cwd : Place) (dir : Path) : Prop :=
  ∀ q, t'.node? q = t.node? q ∨
    (t.node? q = none ∧ t'.node? q = some .directory ∧ ∃ p, p.OnWay dir ∧ t'.entry cwd p .through = .ok (q, .directory))

theorem GrowsAlong.refl (t : Tree) (cwd : Place) (dir : Path) : t.GrowsAlong t cwd dir :=
  fun _ => Or.inl rfl

theorem GrowsAlong.growsBy (h : t.GrowsAlong t' cwd dir) : t.GrowsBy t' := by
  intro q
  rcases h q with hsame | ⟨hnone, hdir, -⟩
  · exact Or.inl hsame
  · exact Or.inr ⟨hnone, hdir⟩

theorem GrowsAlong.trans (h : t.GrowsAlong t' cwd dir) (h' : t'.GrowsAlong t'' cwd dir) : t.GrowsAlong t'' cwd dir := by
  intro q
  rcases h' q with hsame' | ⟨hnone', hdir', hway'⟩
  · rcases h q with hsame | ⟨hnone, hdir, p, hp, he⟩
    · exact Or.inl (hsame'.trans hsame)
    · exact Or.inr ⟨hnone, hsame'.trans hdir, p, hp, entry_of_growsBy h'.growsBy he⟩
  · rcases h q with hsame | ⟨-, hdir, -⟩
    · exact Or.inr ⟨hsame.symm.trans hnone', hdir', hway'⟩
    · rw [hdir] at hnone'
      cases hnone'

/-- A path that leads to where nothing stands leads to the directory that is put there. -/
theorem entry_of_put_directory {parent : Place} {name : String} {slash : Bool}
    (h : t.arrive cwd p .never = .ok (.vacant parent name slash)) :
    (t.put (name :: parent) .directory).entry cwd p .through = .ok (name :: parent, .directory) := by
  obtain ⟨hacc, hw⟩ := arrive_eq_ok.1 h
  have hnone : t.node? (name :: parent) = none := (node?_of_arrive h nofun).1
  have hput := node?_put_self t (name :: parent) .directory (List.cons_ne_nil _ _)
  refine entry_eq_ok.2 ⟨slash, arrive_eq_ok.2 ⟨hacc, ?_⟩, fun _ => rfl⟩
  rcases hw.of_agree (agreeOff_put t _ _) (isEnd_of_none hnone) with hw' | ⟨-, -, h'⟩
  · -- the walk cannot find the name missing any more
    have hmissing := (hw'.node?.resolve_left nofun).1
    change (t.put (name :: parent) .directory).node? (name :: parent) = none at hmissing
    rw [hput] at hmissing
    cases hmissing
  · exact (h' _ hput nofun).of_never nofun .through

end Tree

namespace FileCall

variable {t t' : Tree} {cwd : Place} {dir p : Path} {levels : Nat}

/-- Making one directory on the way adds it, or changes nothing. -/
theorem growsAlong_makeDirectory (hp : p.OnWay dir) (cwd : Place) (t : Tree) :
    t.GrowsAlong (endOf (makeDirectory cwd p t)) cwd dir := by
  unfold makeDirectory
  split
  · exact .refl t cwd dir
  · exact .refl t cwd dir
  · next parent name slash harr =>
    intro q
    by_cases hq : q = name :: parent
    · subst hq
      have hput := Tree.node?_put_self t (name :: parent) .directory (List.cons_ne_nil _ _)
      exact Or.inr ⟨(Tree.node?_of_arrive harr nofun).1, hput, p, hp, Tree.entry_of_put_directory harr⟩
    · exact Or.inl (Tree.node?_put_of_ne _ _ hq)

/-- Making a directory and those above it adds nothing but directories on the way to it, also where it fails. -/
theorem growsAlong_makeDirectories (cwd : Place) (dir : Path) (t : Tree) : t.GrowsAlong (endOf (makeDirectories cwd dir t)) cwd dir := by
  refine makeDirectories_keeps (P := fun t' => t.GrowsAlong t' cwd dir) dir (fun p hp t' h => ?_) t (.refl t cwd dir)
  exact h.trans (growsAlong_makeDirectory hp cwd t')

theorem isDirectory_of_makeDirectory (h : makeDirectory cwd p t = .ok () t') : t'.isDirectory cwd p = true := by
  unfold makeDirectory at h
  split at h
  · cases h
  · cases h
  · next parent name slash harr =>
    cases h
    rw [Tree.isDirectory, Tree.stat_of_entry (Tree.entry_of_put_directory harr)]
    rfl

theorem isDirectory_of_ensureDirectory (h : ensureDirectory cwd p t = .ok () t') : t'.isDirectory cwd p = true := by
  unfold ensureDirectory at h
  split at h
  · next hmake =>
    cases h
    exact isDirectory_of_makeDirectory hmake
  · split at h
    · next hdir =>
      cases h
      exact hdir
    · cases h

/-- For the empty path no directory is made. -/
theorem makeDirectories_of_empty (hp : p.text = "") : makeDirectories cwd p t = .ok () t := by
  unfold makeDirectories makeDirectoriesUp
  rw [if_pos hp]

/-- Where the making of a directory and those above it ends well, the directory is there. -/
theorem isDirectory_of_makeDirectories (hp : p.text ≠ "") (h : makeDirectories cwd p t = .ok () t') : t'.isDirectory cwd p = true := by
  unfold makeDirectories makeDirectoriesUp at h
  rw [if_neg hp] at h
  split at h
  · next hmake =>
    cases h
    exact isDirectory_of_makeDirectory hmake
  · split at h
    · cases h
    · split at h
      · cases h
      · exact isDirectory_of_ensureDirectory h
  · split at h
    · next hdir =>
      cases h
      exact hdir
    · cases h

end FileCall

end BootDisk
