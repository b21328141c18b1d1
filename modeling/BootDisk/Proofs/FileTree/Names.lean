import BootDisk.FileTree.Lay
import BootDisk.Proofs.FileTree.Directory

/-!
# The names in a tree

Every name in a tree's table is one that an entry of a directory can be called by (`Tree.WellNamed`). No call makes another, because
nothing is put but at a place that a walk comes to, and such a place is made of names that the walk started under and of parts of paths
(`Tree.Walks.wellNamed`). So whatever has been laid out is a tree of this kind (`FileCall.lay_keepsNames`).
-/

namespace BootDisk

/-- Every name on the way to the place is one that an entry of a directory can be called by. -/
def Place.WellNamed (p : Place) : Prop :=
  ∀ n ∈ p, IsFileName n

/-- Every name in the tree's table is one that an entry of a directory can be called by. -/
def Tree.WellNamed (t : Tree) : Prop :=
  ∀ e ∈ t.entries, ∀ n ∈ e.1, IsFileName n

instance (t : Tree) : Decidable t.WellNamed :=
  inferInstanceAs (Decidable (∀ e ∈ t.entries, ∀ n ∈ e.1, IsFileName n))

/-! ## The parts of a path -/

/-- No part has the separator in it. -/
theorem TextAux.not_mem_of_mem_fields {sep : Char} {cs f : List Char} (h : f ∈ Text.fields sep cs) : sep ∉ f := by
  induction cs generalizing f with
  | nil =>
    rw [Text.fields, List.mem_singleton] at h
    rw [h]
    exact List.not_mem_nil
  | cons c cs ih =>
    rw [Text.fields] at h
    split at h
    · rcases List.mem_cons.1 h with rfl | h
      · exact List.not_mem_nil
      · exact ih h
    · next hc =>
      split at h
      · rw [List.mem_singleton.1 h, List.mem_singleton]
        exact Ne.symm hc
      · next g fs hfs =>
        rcases List.mem_cons.1 h with rfl | h
        · intro hm
          rcases List.mem_cons.1 hm with heq | hm
          · exact hc heq.symm
          · exact ih (by rw [hfs]; exact List.mem_cons_self) hm
        · exact ih (by rw [hfs]; exact List.mem_cons_of_mem _ h)

/-- A path asks for no other names. -/
theorem Path.isFileName_of_mem_steps {p : Path} {n : String} (h : .name n ∈ p.steps) : IsFileName n := by
  rw [steps_eq, List.mem_append] at h
  rcases h with h | h
  · obtain ⟨cs, hcs, hstep⟩ := List.mem_map.1 h
    obtain ⟨hfield, hne⟩ := List.mem_filter.1 hcs
    unfold stepOf at hstep
    split at hstep
    · cases hstep
    · next hhere =>
      split at hstep
      · cases hstep
      · next hup =>
        cases hstep
        refine ⟨?_, ?_, ?_, ?_⟩
        · rw [String.toList_ofList]
          exact of_decide_eq_true hne
        · rw [String.toList_ofList]
          exact TextAux.not_mem_of_mem_fields hfield
        · rwa [String.toList_ofList]
        · rwa [String.toList_ofList]
  · split at h
    · cases List.mem_singleton.1 h
    · exact absurd h List.not_mem_nil

namespace Tree

variable {t : Tree} {last : LastLink} {links : Nat} {here cwd place : Place} {rest : List Step} {a : Arrival} {p : Path} {n : Node}

theorem WellNamed.names (h : t.WellNamed) (q : Place) : ∀ n ∈ t.names q, IsFileName n := by
  intro n hn
  unfold Tree.names at hn
  obtain ⟨e, he, hname⟩ := List.mem_filterMap.1 hn
  split at hname
  · cases hname
  · next n' parent hplace =>
    split at hname
    · cases hname
      exact h e he n (by rw [hplace]; exact List.mem_cons_self)
    · cases hname

/-! ## The places that paths lead to -/

/-- A walk comes to no other names than those that it started under and those that it was asked for. -/
theorem Walks.wellNamed (hw : t.Walks last links here rest a) (hhere : Place.WellNamed here)
    (hrest : ∀ n, .name n ∈ rest → IsFileName n) : Place.WellNamed a.place := by
  induction hw with
  | done links here => exact hhere
  | here _ ih => exact ih hhere fun n hn => hrest n (List.mem_cons_of_mem _ hn)
  | slash _ ih => exact ih hhere fun n hn => hrest n (List.mem_cons_of_mem _ hn)
  | up _ ih => exact ih (fun n hn => hhere n (List.mem_of_mem_tail hn)) fun n hn => hrest n (List.mem_cons_of_mem _ hn)
  | missing _ _ _ => exact List.forall_mem_cons.2 ⟨hrest _ List.mem_cons_self, hhere⟩
  | stop _ _ _ _ => exact List.forall_mem_cons.2 ⟨hrest _ List.mem_cons_self, hhere⟩
  | enter _ _ _ _ ih =>
    exact ih (List.forall_mem_cons.2 ⟨hrest _ List.mem_cons_self, hhere⟩) fun n hn => hrest n (List.mem_cons_of_mem _ hn)
  | @follow _ here _ _ target _ _ _ _ _ ih =>
    refine ih ?_ ?_
    · unfold startOf
      split
      · exact fun _ hn => absurd hn List.not_mem_nil
      · exact hhere
    · intro n hn
      rcases List.mem_append.1 hn with hn | hn
      · exact Path.isFileName_of_mem_steps hn
      · exact hrest n (List.mem_cons_of_mem _ hn)

theorem wellNamed_of_arrive (hcwd : Place.WellNamed cwd) (h : t.arrive cwd p last = .ok a) : Place.WellNamed a.place := by
  refine (arrive_eq_ok.1 h).2.wellNamed ?_ fun _ => Path.isFileName_of_mem_steps
  unfold startOf
  split
  · exact fun _ hn => absurd hn List.not_mem_nil
  · exact hcwd

theorem wellNamed_of_entry (hcwd : Place.WellNamed cwd) (h : t.entry cwd p last = .ok (place, n)) : Place.WellNamed place := by
  obtain ⟨slash, harr, -⟩ := entry_eq_ok.1 h
  exact wellNamed_of_arrive hcwd harr

/-! ## Changes of the table -/

theorem WellNamed.put (h : t.WellNamed) (hp : Place.WellNamed place) (n : Node) : (t.put place n).WellNamed := by
  intro e he
  rcases List.mem_cons.1 he with rfl | he
  · exact hp
  · exact h e (List.mem_filter.1 he).1

theorem WellNamed.erase (h : t.WellNamed) (place : Place) : (t.erase place).WellNamed :=
  fun e he => h e (List.mem_filter.1 he).1

theorem WellNamed.prune (h : t.WellNamed) (place : Place) : (t.prune place).WellNamed :=
  fun e he => h e (List.mem_filter.1 he).1

theorem WellNamed.store (h : t.WellNamed) (hp : Place.WellNamed place) (n : Node) (c : Content) : (t.store place n c).WellNamed := by
  unfold Tree.store
  split
  · exact h.put hp _
  · exact h

end Tree

namespace FileCall

/-! ## Calls -/

/-- A call puts nothing under a name that no entry of a directory can be called by, also where it fails. -/
def KeepsNames {α : Type} (c : FileCall α) : Prop :=
  ∀ t : Tree, t.WellNamed → (endOf (c t)).WellNamed

section Keeping

variable {α β : Type} {cwd place : Place} {p : Path}

theorem KeepsNames.bind {c : FileCall α} {k : α → FileCall β} (hc : c.KeepsNames) (hk : ∀ v, (k v).KeepsNames) : (c >>= k).KeepsNames := by
  intro t ht
  have hfirst := hc t ht
  cases h : c t with
  | error e t' =>
    rw [h] at hfirst
    rw [bind_of_error h]
    exact hfirst
  | ok v t' =>
    rw [h] at hfirst
    rw [bind_of_ok h]
    exact hk v t' hfirst

theorem keepsNames_pure (v : α) : KeepsNames (pure v) :=
  fun _ ht => ht

variable (hcwd : Place.WellNamed cwd)
include hcwd

/-- Opening a file for writing keeps the names, and the file is at a place of such names. -/
theorem keepsNames_openCreate (p : Path) (mode : Nat) :
    (openCreate cwd p mode).KeepsNames ∧
      ∀ t t' place n, openCreate cwd p mode t = .ok (place, n) t' → Place.WellNamed place := by
  constructor
  · intro t ht
    unfold openCreate
    split
    · exact ht
    · split
      · exact ht
      · exact ht
    · next parent name slash harr =>
      split
      · exact ht
      · exact ht.put (Tree.wellNamed_of_arrive hcwd harr) _
  · intro t t' place n h
    unfold openCreate at h
    split at h
    · cases h
    · next place' n' slash harr =>
      split at h
      · cases h
      · cases h
        exact Tree.wellNamed_of_arrive hcwd harr
    · next parent name slash harr =>
      split at h
      · cases h
      · cases h
        exact Tree.wellNamed_of_arrive hcwd harr

theorem keepsNames_openNew (p : Path) : (openNew cwd p).KeepsNames := by
  intro t ht
  rcases openNew_cases cwd p t with ⟨e, h⟩ | ⟨parent, name, harr, h⟩
  · rw [h]
    exact ht
  · rw [h]
    exact ht.put (Tree.wellNamed_of_arrive hcwd harr) _

theorem keepsNames_writeAll (p : Path) (c : Content) : (writeAll cwd p c).KeepsNames := by
  obtain ⟨hkeeps, hplace⟩ := keepsNames_openCreate hcwd p newFileMode
  intro t ht
  have hopened := hkeeps t ht
  cases h : openCreate cwd p newFileMode t with
  | error e t' =>
    rw [h] at hopened
    rw [writeAll, bind_of_error h]
    exact hopened
  | ok v t' =>
    rw [h] at hopened
    rw [writeAll, bind_of_ok h]
    exact hopened.store (hplace t t' v.1 v.2 h) v.2 c

theorem keepsNames_copy (source target : Path) : (copy cwd source target).KeepsNames := by
  intro t ht
  unfold copy
  split
  · exact ht
  · next origin f he =>
    obtain ⟨hkeeps, hplace⟩ := keepsNames_openCreate hcwd target (Nat.land f.mode creationMask)
    have hopened := hkeeps t ht
    split
    · next e t' h =>
      rw [h] at hopened
      exact hopened
    · next place g t' h =>
      rw [h] at hopened
      exact hopened.put (hplace t t' place _ h) _
    · next v t' _ h =>
      rw [h] at hopened
      exact hopened
  · exact ht

theorem keepsNames_setMode (p : Path) (mode : Nat) : (setMode cwd p mode).KeepsNames := by
  intro t ht
  unfold setMode
  split
  · exact ht
  · next place f he => exact ht.put (Tree.wellNamed_of_entry hcwd he) _
  · exact ht

theorem keepsNames_makeDirectories (p : Path) : (makeDirectories cwd p).KeepsNames := by
  refine fun t ht => makeDirectories_keeps (P := Tree.WellNamed) p (fun q _ t ht => ?_) t ht
  unfold makeDirectory
  split
  · exact ht
  · exact ht
  · next parent name slash harr => exact ht.put (Tree.wellNamed_of_arrive hcwd harr) _

theorem keepsNames_makeParents (p : Path) : (makeParents cwd p).KeepsNames := by
  unfold makeParents
  split
  · exact keepsNames_makeDirectories hcwd _
  · exact keepsNames_pure ()

theorem keepsNames_makeLink (p target : Path) : (makeLink cwd p target).KeepsNames := by
  intro t ht
  unfold makeLink
  split
  · exact ht
  · exact ht
  · exact ht
  · next parent name harr => exact ht.put (Tree.wellNamed_of_arrive hcwd harr) _

omit hcwd in
theorem keepsNames_removeFile (cwd : Place) (p : Path) : (removeFile cwd p).KeepsNames := by
  intro t ht
  unfold removeFile
  split
  · exact ht
  · exact ht
  · exact ht.erase _

omit hcwd in
theorem keepsNames_removeAny (cwd : Place) (p : Path) : (removeAny cwd p).KeepsNames := by
  intro t ht
  unfold removeAny
  split
  · exact ht
  · exact ht.prune _
  · exact ht.erase _

/-- Whatever is put at a path, the names are such as they were. -/
theorem keepsNames_lay (p : Path) (what : Furnishing) : (lay cwd p what).KeepsNames := by
  cases what with
  | directory => exact keepsNames_makeDirectories hcwd p
  | file content mode =>
    exact (keepsNames_makeParents hcwd p).bind fun _ => (keepsNames_writeAll hcwd p content).bind fun _ => keepsNames_setMode hcwd p mode
  | link target =>
    refine (keepsNames_makeParents hcwd p).bind fun _ => KeepsNames.bind (fun _ ht => ht) fun t => ?_
    split
    · exact (keepsNames_removeFile cwd p).bind fun _ => keepsNames_makeLink hcwd p target
    · exact (keepsNames_removeFile cwd p).bind fun _ => keepsNames_makeLink hcwd p target
    · exact (keepsNames_pure ()).bind fun _ => keepsNames_makeLink hcwd p target

end Keeping

end FileCall

end BootDisk
