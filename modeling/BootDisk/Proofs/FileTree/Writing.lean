import BootDisk.Proofs.Basic
import BootDisk.Proofs.FileTree.Calls

/-!
# What writing a file changes

A file that has been written is at the end of its path with the bytes that were written, unless a device is there, which keeps none; and
whatever other paths lead to is as it was, except where they lead to that file.
-/

namespace BootDisk

namespace Tree

variable {t t' : Tree} {cwd q place : Place} {p : Path} {last : LastLink} {links : Nat} {here : Place} {rest : List Step} {a : Arrival}
variable {n : Node} {g : File} {c : Content}

/-- A walk on which a file can be made goes through every link, if no slash follows. -/
theorem Walks.through_of_toCreate (h : t.Walks .toCreate links here rest a) (hs : a.slash = false) : t.Walks .through links here rest a := by
  induction h with
  | done links here => exact .done links here
  | here _ ih => exact .here (ih hs)
  | slash _ ih => exact .slash (ih hs)
  | up _ ih => exact .up (ih hs)
  | missing hname he hn => exact .missing hname he hn
  | @stop _ _ _ _ slash _ hname he hn hl =>
    refine .stop hname he hn fun hlink => ?_
    have hs : slash = false := hs
    rw [hs] at hl
    cases hl hlink
  | enter hname he hn _ ih => exact .enter hname he hn (ih hs)
  | follow hname hn _ _ ih => exact .follow hname hn (fun _ _ => rfl) (ih hs)

theorem arrive_through_of_toCreate (h : t.arrive cwd p .toCreate = .ok a) (hs : a.slash = false) : t.arrive cwd p .through = .ok a := by
  obtain ⟨hacc, hw⟩ := arrive_eq_ok.1 h
  exact arrive_eq_ok.2 ⟨hacc, hw.through_of_toCreate hs⟩

/-- A path leads to the file that is put where it has led, if that was no place to go on from. -/
theorem entry_of_put_file (h : t.arrive cwd p .through = .ok a) (hs : a.slash = false) (hnode : a.node? ≠ some .directory)
    (hend : t.IsEnd a.place) (ha : AgreeOff t t' a.place) (hq : t'.node? a.place = some (.file g)) :
    t'.entry cwd p .through = .ok (a.place, .file g) := by
  obtain ⟨hacc, hw⟩ := arrive_eq_ok.1 h
  refine entry_eq_ok.2 ⟨false, arrive_eq_ok.2 ⟨hacc, ?_⟩, nofun⟩
  rcases hw.of_agree ha hend with hw' | ⟨-, -, h'⟩
  · have hq' := (hw'.node?.resolve_left hnode).1
    rw [hq] at hq'
    cases a with
    | found place n slash =>
      cases hq'
      cases hs
      exact hw'
    | vacant parent name slash => cases hq'
  · rw [← hs]
    exact h' _ hq nofun

/-- A path that leads to something leads there still, or it leads to the one place that has changed. -/
theorem entry_of_elsewhere (h : t.entry cwd p .through = .ok (place, n)) (hend : t.IsEnd q) (ha : AgreeOff t t' q) :
    t'.entry cwd p .through = .ok (place, n) ∨ ∀ g, t'.node? q = some (.file g) → t'.entry cwd p .through = .ok (q, .file g) := by
  obtain ⟨slash, harr, hs⟩ := entry_eq_ok.1 h
  obtain ⟨hacc, hw⟩ := arrive_eq_ok.1 harr
  rcases hw.of_agree ha hend with hw' | ⟨-, hnode, h'⟩
  · exact Or.inl (entry_eq_ok.2 ⟨slash, arrive_eq_ok.2 ⟨hacc, hw'⟩, hs⟩)
  · refine Or.inr fun g hg => ?_
    have hslash : slash = false := by
      cases slash with
      | false => rfl
      | true =>
        cases n with
        | directory => exact absurd hnode.symm hend.1
        | file f => cases hs rfl
        | link target => cases hs rfl
        | device => cases hs rfl
    subst hslash
    exact entry_eq_ok.2 ⟨false, arrive_eq_ok.2 ⟨hacc, h' _ hg nofun⟩, nofun⟩

theorem readAll_of_entry (h : t.entry cwd p .through = .ok (place, n)) : t.readAll cwd p = contentOf n := by
  rw [readAll, stat_of_entry h]
  rfl

theorem readAll_eq_ok : t.readAll cwd p = .ok c ↔ ∃ place n, t.entry cwd p .through = .ok (place, n) ∧ contentOf n = .ok c := by
  constructor
  · intro h
    obtain ⟨n, hn, hc⟩ := ExceptAux.bind_eq_ok.1 h
    obtain ⟨place, he⟩ := stat_eq_ok.1 hn
    exact ⟨place, n, he, hc⟩
  · rintro ⟨place, n, he, hc⟩
    rw [readAll_of_entry he, hc]

end Tree

namespace FileCall

variable {t t' : Tree} {cwd : Place} {p : Path} {c : Content} {n : Node} {q : Place}

/-- Opening a file for writing finds a file, makes one where nothing stood, or finds a device and changes nothing. -/
theorem openCreate_ok {mode : Nat} (h : openCreate cwd p mode t = .ok (q, n) t') :
    ∃ a, t.arrive cwd p .through = .ok a ∧ a.slash = false ∧ a.place = q ∧ a.node? ≠ some .directory ∧ t.IsEnd q ∧ Tree.AgreeOff t t' q ∧
      ((∃ f, n = .file f) ∨ (n = .device ∧ a.node? = some .device ∧ t' = t)) := by
  unfold openCreate at h
  split at h
  · cases h
  · next place node slash harr =>
    by_cases hbad : (slash || node.isDirectory) = true
    · rw [if_pos hbad] at h
      cases h
    rw [if_neg hbad] at h
    cases h
    simp only [Bool.or_eq_true, not_or, Bool.not_eq_true] at hbad
    obtain ⟨rfl, hdir⟩ := hbad
    have hthrough := Tree.arrive_through_of_toCreate harr rfl
    have hlink := (Tree.arrive_eq_ok.1 hthrough).2.node?_ne_link
    have hnode : (Arrival.found q n false).node? ≠ some .directory := by
      intro heq
      cases heq
      cases hdir
    have hthere : t.node? q = some n := (Tree.node?_of_arrive hthrough hnode).1
    refine ⟨_, hthrough, rfl, rfl, hnode, ⟨hthere ▸ hnode, fun target => hthere ▸ hlink target⟩, fun _ _ => rfl, ?_⟩
    cases n with
    | file f => exact Or.inl ⟨f, rfl⟩
    | directory => cases hdir
    | link target => exact absurd rfl (hlink target)
    | device => exact Or.inr ⟨rfl, rfl, rfl⟩
  · next parent name slash harr =>
    cases slash with
    | true => cases h
    | false =>
      cases h
      have hthrough := Tree.arrive_through_of_toCreate harr rfl
      have hnone := (Tree.node?_of_arrive hthrough nofun).1
      exact ⟨_, hthrough, rfl, rfl, nofun, Tree.isEnd_of_none hnone, Tree.agreeOff_put t _ _, Or.inl ⟨_, rfl⟩⟩

/-- A whole file that has been written is where its path leads, with these bytes, and nothing else has changed; or a device is there. -/
theorem writeAll_ok (h : writeAll cwd p c t = .ok () t') :
    ∃ q, t.IsEnd q ∧ Tree.AgreeOff t t' q ∧
      ((∃ f : File, f.content = c ∧ t'.entry cwd p .through = .ok (q, .file f)) ∨
        (t' = t ∧ t.entry cwd p .through = .ok (q, .device))) := by
  obtain ⟨⟨q, n⟩, u, hopen, hstore⟩ := bind_eq_ok.1 h
  obtain ⟨a, harr, hs, rfl, hdir, hend, hagree, ⟨f, rfl⟩ | ⟨rfl, hdevice, rfl⟩⟩ := openCreate_ok hopen
  · cases hstore
    have hput := Tree.node?_put_self u a.place (.file { f with content := c }) (Tree.node?_of_arrive harr hdir).2
    have hall := hagree.trans (Tree.agreeOff_put u a.place (.file { f with content := c }))
    exact ⟨a.place, hend, hall, Or.inl ⟨_, rfl, Tree.entry_of_put_file harr hs hdir hend hall hput⟩⟩
  · cases hstore
    refine ⟨a.place, hend, hagree, Or.inr ⟨rfl, Tree.entry_eq_ok.2 ⟨false, ?_, nofun⟩⟩⟩
    cases a with
    | found place n slash =>
      cases hdevice
      cases hs
      exact harr
    | vacant parent name slash => cases hdevice

end FileCall

end BootDisk
