import BootDisk.Proofs.FileTree.Names
import BootDisk.Proofs.Machine
import BootDisk.Staging.Discovery

/-!
# The programs that are found

What a successful search gives: it changes nothing, and the programs come strictly in the order of their names, each of which is one that
an entry of a directory can be called by.
-/

namespace BootDisk

namespace Path

variable {n : String}

/-- The last name of a path that is one name is that name. -/
theorem fileName?_name (hn : IsFileName n) : (Path.mk n).fileName? = some n := by
  unfold fileName? components
  rw [isAbsolute_name hn, TextAux.fields_of_not_mem hn.no_slash]
  simp [hn.ne_nil, hn.ne_here, hn.ne_up]

/-- What stands before the last dot of a name: all of it, or a part that is not empty and has the name's first character. -/
theorem cutAtLastDot_fst (cs : List Char) (h : cs ≠ []) : ∃ c stem rest, cs = c :: stem ++ rest ∧ (cutAtLastDot cs).1 = c :: stem := by
  have hwhole : ∃ c stem rest, cs = c :: stem ++ rest ∧ cs = c :: stem := by
    obtain ⟨c, stem, rfl⟩ := List.exists_cons_of_ne_nil h
    exact ⟨c, stem, [], (List.append_nil _).symm, rfl⟩
  unfold cutAtLastDot
  dsimp only
  split
  · exact hwhole
  · exact hwhole
  · next dot head hne hdrop =>
    have hsplit := List.takeWhile_append_dropWhile (p := (· ≠ '.')) (l := cs.reverse)
    rw [hdrop] at hsplit
    have hcs : cs = head.reverse ++ (dot :: (cs.reverse.takeWhile (· ≠ '.')).reverse) := by
      have := congrArg List.reverse hsplit
      simpa using this.symm
    obtain ⟨c, stem, hstem⟩ := List.exists_cons_of_ne_nil (l := head.reverse) (by
      intro hnil
      rw [List.reverse_eq_nil_iff] at hnil
      exact hne hnil)
    exact ⟨c, stem, _, by rw [← hstem]; exact hcs, hstem⟩

end Path

namespace Program

variable {t : Tree} {cwd : Place} {dir : Path} {n : String} {p : Program}

/-- A program is called by a name that an entry of a directory can be called by. -/
theorem isFileName_of_ofEntry (hn : IsFileName n) (h : ofEntry t cwd dir n = some p) : IsFileName p.name := by
  unfold ofEntry at h
  dsimp only at h
  split at h
  · cases h
  next hdot =>
  split at h
  · split at h
    · cases h
      exact hn
    · cases h
  · split at h
    · rw [Path.fileStem?, Path.fileName?_name hn] at h
      simp only [Option.map_some, Option.some.injEq] at h
      obtain ⟨c, stem, rest, hcs, hcut⟩ := Path.cutAtLastDot_fst n.toList hn.ne_nil
      rw [hcut] at h
      have hc : c ≠ '.' := by
        intro hc
        rw [hcs, hc] at hdot
        exact hdot rfl
      rw [← h]
      refine ⟨?_, ?_, ?_, ?_⟩ <;> rw [String.toList_ofList]
      · exact List.cons_ne_nil _ _
      · intro hm
        exact hn.no_slash (by rw [hcs]; exact List.mem_append_left _ hm)
      · intro heq
        exact hc (List.cons.inj heq).1
      · intro heq
        exact hc (List.cons.inj heq).1
    · cases h

/-! ## Their order -/

theorem le_of_inOrder {a b : Program} (h : inOrder a b = true) : a.name ≤ b.name := by
  unfold inOrder at h
  split at h
  · next hab => exact hab ▸ String.le_refl a.name
  · exact of_decide_eq_true h

theorem inOrder_trans (a b c : Program) (hab : inOrder a b = true) (hbc : inOrder b c = true) : inOrder a c = true := by
  have hab' := le_of_inOrder hab
  have hbc' := le_of_inOrder hbc
  unfold inOrder at hab hbc ⊢
  split
  · next hac =>
    -- the two names are one, and so is the one between them
    have hname : a.name = b.name := String.le_antisymm hab' (hac ▸ hbc')
    rw [if_pos hname] at hab
    rw [if_pos (hname.symm.trans hac)] at hbc
    exact decide_eq_true (String.le_trans (of_decide_eq_true hab) (of_decide_eq_true hbc))
  · exact decide_eq_true (String.le_trans hab' hbc')

theorem inOrder_total (a b : Program) : (inOrder a b || inOrder b a) = true := by
  rw [Bool.or_eq_true]
  unfold inOrder
  by_cases h : a.name = b.name
  · rw [if_pos h, if_pos h.symm]
    rcases String.le_total a.source.text b.source.text with h | h
    · exact Or.inl (decide_eq_true h)
    · exact Or.inr (decide_eq_true h)
  · rw [if_neg h, if_neg (Ne.symm h)]
    rcases String.le_total a.name b.name with h | h
    · exact Or.inl (decide_eq_true h)
    · exact Or.inr (decide_eq_true h)

/-- Programs in order of which no two neighbours have one name come strictly in the order of their names. -/
theorem strict_of_firstRepeated {ps : List Program} (h : ps.Pairwise fun a b => inOrder a b = true) (hr : firstRepeated ps = none) :
    ps.Pairwise fun a b => a.name < b.name := by
  induction ps with
  | nil => exact .nil
  | cons a ps ih =>
    obtain ⟨ha, hps⟩ := List.pairwise_cons.1 h
    cases ps with
    | nil => exact List.pairwise_singleton _ _
    | cons b ps =>
      unfold firstRepeated at hr
      split at hr
      · cases hr
      next hab =>
      refine List.pairwise_cons.2 ⟨?_, ih hps hr⟩
      have hlt : a.name < b.name := by
        refine String.not_le.1 fun hba => hab ?_
        exact String.le_antisymm (le_of_inOrder (ha b List.mem_cons_self)) hba
      intro c hc
      rcases List.mem_cons.1 hc with rfl | hc
      · exact hlt
      · refine String.not_le.1 fun hca => String.not_le.2 hlt ?_
        exact String.le_trans (le_of_inOrder ((List.pairwise_cons.1 hps).1 c hc)) hca

/-- A search changes nothing. -/
theorem endOf_discover (dir : Path) (m : Machine) : endOf (discover dir m) = m := by
  unfold discover
  split
  · split
    · rfl
    · split
      · rfl
      · rfl
  · rfl

theorem machine_of_discover {m m' : Machine} {programs : List Program} (h : discover dir m = .ok programs m') : m' = m := by
  rw [← endOf_discover dir m, h, endOf_ok]

/-- Programs that the directory lists in their order are found as they are listed. -/
theorem discover_of_listed {m : Machine} (names : List String) {programs : List Program}
    (h : m.tree.isDirectory m.cwd dir = true ∧ (entryNames m.tree m.cwd dir).toOption = some names ∧
      names.filterMap (ofEntry m.tree m.cwd dir) = programs ∧ (programs.Pairwise fun a b => inOrder a b = true) ∧
      firstRepeated programs = none) : discover dir m = .ok programs m := by
  obtain ⟨hdir, hnames, hfound, hsorted, hrepeated⟩ := h
  have hentries : entryNames m.tree m.cwd dir = .ok names := by
    cases h : entryNames m.tree m.cwd dir with
    | error e =>
      rw [h] at hnames
      cases hnames
    | ok ns =>
      rw [h] at hnames
      rw [Option.some.inj hnames]
  have hprograms : ofEntries m.tree m.cwd dir names = .ok programs := by
    simp only [ofEntries, hfound, List.mergeSort_of_pairwise hsorted, hrepeated]
  rw [discover, if_pos hdir, hentries]
  simp only [hprograms]

/-- The programs that are found are those of the names that the directory lists, put in order, no two of one name. -/
theorem of_discover {m m' : Machine} {programs : List Program} (h : discover dir m = .ok programs m') :
    programs = [] ∨ ∃ names, entryNames m.tree m.cwd dir = .ok names ∧ firstRepeated programs = none ∧
      programs = (names.filterMap (ofEntry m.tree m.cwd dir)).mergeSort inOrder := by
  unfold discover at h
  split at h
  · split at h
    · cases h
    next names hnames =>
    split at h
    · next found hfound =>
      cases h
      unfold ofEntries at hfound
      dsimp only at hfound
      split at hfound
      · cases hfound
      next hrepeated =>
      cases hfound
      exact Or.inr ⟨names, hnames, hrepeated, rfl⟩
    · cases h
  · cases h
    exact Or.inl rfl

/-- The programs that are found come strictly in the order of their names. -/
theorem sorted_of_discover {m m' : Machine} {programs : List Program} (h : discover dir m = .ok programs m') :
    programs.Pairwise fun a b => a.name < b.name := by
  rcases of_discover h with rfl | ⟨names, -, hrepeated, rfl⟩
  · exact .nil
  · exact strict_of_firstRepeated (List.pairwise_mergeSort inOrder_trans inOrder_total _) hrepeated

/-- The programs that are found have names that entries of a directory can be called by, and come strictly in the order of the names. -/
theorem discover_ok {m m' : Machine} {programs : List Program} (hw : m.tree.WellNamed) (h : discover dir m = .ok programs m') :
    (∀ p ∈ programs, IsFileName p.name) ∧ programs.Pairwise fun a b => a.name < b.name := by
  refine ⟨?_, sorted_of_discover h⟩
  rcases of_discover h with rfl | ⟨names, hnames, -, rfl⟩
  · nofun
  · have hnames' : ∀ n ∈ names, IsFileName n := by
      unfold entryNames at hnames
      split at hnames
      · cases hnames
        exact hw.names _
      · cases hnames
      · cases hnames
    intro p hp
    obtain ⟨n, hn, hentry⟩ := List.mem_filterMap.1 (List.mem_mergeSort.1 hp)
    exact isFileName_of_ofEntry (hnames' n hn) hentry

end Program

end BootDisk
