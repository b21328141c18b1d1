import BootDisk.Proofs.Basic
import BootDisk.Proofs.Discovery
import BootDisk.Proofs.FileTree.Growth
import BootDisk.Proofs.Text.Utf8

/-!
# Which programs are found

The binaries of a source directory are told by what its entries are called and what they resolve to (`Program.StandsFor`), without a look
at how the search goes. The search finds just these, strictly in the order of the bytes of their names, if no two of them have one name,
and otherwise it tells the least name that two of them share (`Program.discover_exact`). The order in which the directory lists its entries
never matters.
-/

namespace BootDisk

/-! ## Listing a directory -/

namespace Tree

variable {t t' : Tree} {cwd d q : Place} {p : Path} {n : String} {node : Node}

/-- No place comes up twice in the tree's table. -/
def Distinct (t : Tree) : Prop :=
  (t.entries.map Prod.fst).Nodup

instance (t : Tree) : Decidable t.Distinct :=
  inferInstanceAs (Decidable (t.entries.map Prod.fst).Nodup)

/-- The trees have the same table but for its order, in which directories list their entries. -/
def Relisted (t t' : Tree) : Prop :=
  t.entries.Perm t'.entries

/-- What stands at a place other than the root is what the table has there. -/
theorem node?_eq_some_iff (ht : t.Distinct) (hq : q ≠ []) : t.node? q = some node ↔ (q, node) ∈ t.entries := by
  rw [node?, if_neg hq, ListAux.lookup_eq_some_iff_mem ht]

/-- What stands where does not depend on the order of the table. -/
theorem Relisted.node? (h : t.Relisted t') (ht : t.Distinct) (q : Place) : t'.node? q = t.node? q := by
  by_cases hq : q = []
  · rw [hq, node?_nil, node?_nil]
  have ht' : t'.Distinct := (h.map Prod.fst).nodup_iff.1 ht
  ext node
  rw [node?_eq_some_iff ht hq, node?_eq_some_iff ht' hq]
  exact h.mem_iff.symm

/-- Nor does what paths resolve to. -/
theorem Relisted.entry_eq_ok (h : t.Relisted t') (ht : t.Distinct) {last : LastLink} :
    t'.entry cwd p last = .ok (q, node) ↔ t.entry cwd p last = .ok (q, node) := by
  have hnode := h.node? ht
  exact ⟨entry_of_growsBy fun q => Or.inl (hnode q).symm, entry_of_growsBy fun q => Or.inl (hnode q)⟩

theorem Relisted.stat_eq_ok (h : t.Relisted t') (ht : t.Distinct) : t'.stat cwd p = .ok node ↔ t.stat cwd p = .ok node := by
  rw [Tree.stat_eq_ok, Tree.stat_eq_ok]
  exact exists_congr fun q => h.entry_eq_ok ht

/-- A directory lists the names under which something stands in it. -/
theorem mem_names (ht : t.Distinct) : n ∈ t.names d ↔ t.node? (n :: d) ≠ none := by
  rw [Option.ne_none_iff_exists', names, List.mem_filterMap]
  simp only [node?_eq_some_iff ht (List.cons_ne_nil n d)]
  constructor
  · rintro ⟨⟨place, node⟩, he, hname⟩
    dsimp only at hname
    split at hname
    · cases hname
    · split at hname
      · next hparent =>
        cases hname
        exact ⟨node, hparent ▸ he⟩
      · cases hname
  · rintro ⟨node, he⟩
    exact ⟨(n :: d, node), he, if_pos rfl⟩

/-- A directory lists no name twice. -/
theorem nodup_names (ht : t.Distinct) (d : Place) : (t.names d).Nodup := by
  refine List.Pairwise.filterMap _ ?_ (List.pairwise_map.1 ht)
  rintro ⟨place, node⟩ ⟨place', node'⟩ hne n hn n' hn' rfl
  dsimp only at hn hn' hne
  split at hn
  · cases hn
  split at hn
  · next hparent =>
    cases hn
    split at hn'
    · cases hn'
    split at hn'
    · next hparent' =>
      cases hn'
      exact hne (by rw [hparent, hparent'])
    · cases hn'
  · cases hn

theorem isDirectory_iff : t.isDirectory cwd p = true ↔ t.stat cwd p = .ok .directory := by
  unfold isDirectory
  cases t.stat cwd p with
  | error e => simp
  | ok n => cases n <;> simp [Node.isDirectory]

theorem isFile_iff : t.isFile cwd p = true ↔ ∃ f, t.stat cwd p = .ok (.file f) := by
  unfold isFile
  cases t.stat cwd p with
  | error e => simp
  | ok n => cases n <;> simp [Node.isFile]

end Tree

/-! ## The name of a source file -/

namespace Path

/-- A name is cut at its last dot into what stands before it, if that is not empty, and what stands behind it. -/
theorem cutAtLastDot_eq_some {cs stem ext : List Char} :
    cutAtLastDot cs = (stem, some ext) ↔ stem ≠ [] ∧ '.' ∉ ext ∧ cs = stem ++ '.' :: ext := by
  constructor
  · intro h
    unfold cutAtLastDot at h
    dsimp only at h
    split at h
    · cases h
    · cases h
    next dot head hne hdrop =>
    have hdot : dot = '.' := by
      have hfirst := List.head?_dropWhile_not (fun c : Char => decide (c ≠ '.')) cs.reverse
      rw [hdrop] at hfirst
      simpa using hfirst
    have hsplit := List.takeWhile_append_dropWhile (p := (· ≠ '.')) (l := cs.reverse)
    rw [hdrop, hdot] at hsplit
    cases h
    refine ⟨?_, ?_, ?_⟩
    · rw [ne_eq, List.reverse_eq_nil_iff]
      exact hne
    · intro hmem
      have hall := List.all_eq_true.1 (List.all_takeWhile (p := (· ≠ '.')) (l := cs.reverse)) _ (List.mem_reverse.1 hmem)
      simp at hall
    · have := congrArg List.reverse hsplit
      simpa using this.symm
  · rintro ⟨hstem, hext, rfl⟩
    have hall : ∀ c ∈ ext.reverse, decide (c ≠ '.') = true := by
      intro c hc
      rw [decide_eq_true_eq]
      rintro rfl
      exact hext (List.mem_reverse.1 hc)
    have hrev : (stem ++ '.' :: ext).reverse = ext.reverse ++ '.' :: stem.reverse := by simp
    unfold cutAtLastDot
    rw [hrev, List.takeWhile_append_of_pos hall, List.dropWhile_append_of_pos hall]
    obtain ⟨c, cs, hcs⟩ := List.exists_cons_of_ne_nil (mt List.reverse_eq_nil_iff.1 hstem)
    rw [← List.reverse_reverse stem, List.reverse_reverse stem.reverse, hcs]
    simp

/-- A name has the extension of a source file, and a stem, exactly when it is the stem with that extension behind it. -/
theorem extension?_rs {n stem : String} (hn : IsFileName n) :
    ((Path.mk n).extension? = some "rs" ∧ (Path.mk n).fileStem? = some stem) ↔ stem ≠ "" ∧ n = stem ++ ".rs" := by
  have hrs : ".rs".toList = '.' :: "rs".toList := by decide
  have hne : stem ≠ "" ↔ stem.toList ≠ [] := by
    rw [ne_eq, ne_eq, String.toList_eq_nil_iff]
  have heq : n = stem ++ ".rs" ↔ n.toList = stem.toList ++ '.' :: "rs".toList := by
    rw [← hrs, ← String.toList_append, String.toList_inj]
  have hcut : cutAtLastDot n.toList = (stem.toList, some "rs".toList) ↔
      stem.toList ≠ [] ∧ '.' ∉ "rs".toList ∧ n.toList = stem.toList ++ '.' :: "rs".toList := cutAtLastDot_eq_some
  rw [hne, heq, extension?, fileStem?, fileName?_name hn]
  simp only [Option.bind_some, Option.map_some, Option.some.injEq, Option.map_eq_some_iff]
  have hdot : '.' ∉ "rs".toList := by decide
  constructor
  · rintro ⟨⟨ext, hext, hofList⟩, hstem⟩
    have hcs : cutAtLastDot n.toList = (stem.toList, some "rs".toList) := by
      rw [Prod.ext_iff, hext, ← hstem, ← hofList]
      simp
    exact ⟨(hcut.1 hcs).1, (hcut.1 hcs).2.2⟩
  · rintro ⟨hstem, hn⟩
    rw [hcut.2 ⟨hstem, hdot, hn⟩]
    simp

end Path

namespace Program

variable {t t' : Tree} {cwd : Place} {dir : Path} {n n' : String} {p q : Program}

/-! ## Binaries -/

/-- A program that an entry of the source directory stands for. A name that starts with a dot stands for none. A directory with a main
source in it stands for the program of its name, and what resolves to no directory, or to nothing at all, for the one that its name is the
source file of. -/
inductive StandsFor (t : Tree) (cwd : Place) (dir : Path) : String → Program → Prop where
  | folder {n : String} {f : File} : n.toList.head? ≠ some '.' → t.stat cwd (dir.join ⟨n⟩) = .ok .directory →
      t.stat cwd ((dir.join ⟨n⟩).join ⟨"main.rs"⟩) = .ok (.file f) →
      StandsFor t cwd dir n ⟨n, (dir.join ⟨n⟩).join ⟨"main.rs"⟩⟩
  | source {stem : String} : (stem ++ ".rs").toList.head? ≠ some '.' → t.stat cwd (dir.join ⟨stem ++ ".rs"⟩) ≠ .ok .directory →
      stem ≠ "" → StandsFor t cwd dir (stem ++ ".rs") ⟨stem, dir.join ⟨stem ++ ".rs"⟩⟩

/-- A binary of a source directory: what an entry of the directory that the path resolves to stands for. -/
def IsBinary (t : Tree) (cwd : Place) (dir : Path) (p : Program) : Prop :=
  ∃ d n, t.entry cwd dir .through = .ok (d, .directory) ∧ t.node? (n :: d) ≠ none ∧ StandsFor t cwd dir n p

/-- The program that the search sees in an entry is the one that the entry stands for. -/
theorem ofEntry_eq_some (hn : IsFileName n) : ofEntry t cwd dir n = some p ↔ StandsFor t cwd dir n p := by
  constructor
  · intro h
    unfold ofEntry at h
    dsimp only at h
    split at h
    · cases h
    next hdot =>
    split at h
    · next hdir =>
      split at h
      · next hmain =>
        cases h
        obtain ⟨f, hf⟩ := Tree.isFile_iff.1 hmain
        exact .folder hdot (Tree.isDirectory_iff.1 hdir) hf
      · cases h
    · next hdir =>
      split at h
      · next hext =>
        obtain ⟨stem, hstem, rfl⟩ := Option.map_eq_some_iff.1 h
        obtain ⟨hne, rfl⟩ := (Path.extension?_rs hn).1 ⟨hext, hstem⟩
        exact .source hdot (mt Tree.isDirectory_iff.2 hdir) hne
      · cases h
  · intro h
    unfold ofEntry
    dsimp only
    cases h with
    | folder hdot hdir hmain => rw [if_neg hdot, if_pos (Tree.isDirectory_iff.2 hdir), if_pos (Tree.isFile_iff.2 ⟨_, hmain⟩)]
    | @source stem hdot hdir hne =>
      obtain ⟨hext, hstem⟩ := (Path.extension?_rs hn).2 ⟨hne, rfl⟩
      rw [if_neg hdot, if_neg (mt Tree.isDirectory_iff.1 hdir), if_pos hext, hstem]
      rfl

/-- The two entries that can stand for a program of a name. -/
theorem StandsFor.eq_or (h : StandsFor t cwd dir n p) :
    (n = p.name ∧ p.source = (dir.join ⟨p.name⟩).join ⟨"main.rs"⟩) ∨ (n = p.name ++ ".rs" ∧ p.source = dir.join ⟨p.name ++ ".rs"⟩) := by
  cases h with
  | folder _ _ _ => exact Or.inl ⟨rfl, rfl⟩
  | source _ _ _ => exact Or.inr ⟨rfl, rfl⟩

/-- The main source in a directory is at another path than the source file of that name. -/
theorem main_ne_source (hn : IsFileName n) (hn' : IsFileName (n ++ ".rs")) :
    (dir.join ⟨n⟩).join ⟨"main.rs"⟩ ≠ dir.join ⟨n ++ ".rs"⟩ := by
  intro h
  have hmain : IsFileName "main.rs" := by decide
  have hlast : ¬ ((dir.join ⟨n⟩).text.toList = [] ∨ (dir.join ⟨n⟩).text.toList.getLast? = some '/') := by
    rw [Path.toList_join hn]
    rintro (hnil | hslash)
    · split at hnil
      · exact hn.ne_nil (List.append_eq_nil_iff.1 hnil).2
      · exact List.cons_ne_nil _ _ (List.append_eq_nil_iff.1 hnil).2
    · split at hslash
      · rw [TextAux.getLast?_append_of_ne_nil _ hn.ne_nil] at hslash
        exact hn.no_slash (List.mem_of_getLast? hslash)
      · rw [TextAux.getLast?_append_of_ne_nil _ (List.cons_ne_nil _ _), ← List.singleton_append,
          TextAux.getLast?_append_of_ne_nil _ hn.ne_nil] at hslash
        exact hn.no_slash (List.mem_of_getLast? hslash)
  have hlist := congrArg (fun q : Path => q.text.toList) h
  rw [Path.toList_join hmain, if_neg hlast, Path.toList_join hn, Path.toList_join hn', String.toList_append] at hlist
  split at hlist
  · simp at hlist
  · simp at hlist

/-- Different entries stand for different programs. -/
theorem StandsFor.entry_unique (hn : IsFileName n) (hn' : IsFileName n') (h : StandsFor t cwd dir n p) (h' : StandsFor t cwd dir n' p) :
    n = n' := by
  rcases h.eq_or with ⟨rfl, hs⟩ | ⟨rfl, hs⟩
  · rcases h'.eq_or with ⟨rfl, -⟩ | ⟨rfl, hs'⟩
    · rfl
    · exact absurd (hs.symm.trans hs') (main_ne_source hn hn')
  · rcases h'.eq_or with ⟨rfl, hs'⟩ | ⟨rfl, -⟩
    · exact absurd (hs'.symm.trans hs) (main_ne_source hn' hn)
    · rfl

/-- At most two binaries have one name. -/
theorem IsBinary.eq_or {a b : Program} (ha : IsBinary t cwd dir a) (hb : IsBinary t cwd dir b) (hne : a ≠ b) (hab : a.name = b.name)
    (hp : IsBinary t cwd dir p) (hpa : p.name = a.name) : p = a ∨ p = b := by
  obtain ⟨_, _, _, _, ha⟩ := ha
  obtain ⟨_, _, _, _, hb⟩ := hb
  obtain ⟨_, _, _, _, hp⟩ := hp
  have hext {x y : Program} (hname : x.name = y.name) (hsource : x.source = y.source) : x = y := by
    cases x
    cases y
    cases hname
    cases hsource
    rfl
  rcases ha.eq_or with ⟨-, hsa⟩ | ⟨-, hsa⟩
  · rcases hp.eq_or with ⟨-, hsp⟩ | ⟨-, hsp⟩
    · exact Or.inl (hext hpa (by rw [hsp, hsa, hpa]))
    · rcases hb.eq_or with ⟨-, hsb⟩ | ⟨-, hsb⟩
      · exact absurd (hext hab (by rw [hsb, hsa, hab])) hne
      · exact Or.inr (hext (hpa.trans hab) (by rw [hsp, hsb, hpa, hab]))
  · rcases hp.eq_or with ⟨-, hsp⟩ | ⟨-, hsp⟩
    · rcases hb.eq_or with ⟨-, hsb⟩ | ⟨-, hsb⟩
      · exact Or.inr (hext (hpa.trans hab) (by rw [hsp, hsb, hpa, hab]))
      · exact absurd (hext hab (by rw [hsb, hsa, hab])) hne
    · exact Or.inl (hext hpa (by rw [hsp, hsa, hpa]))

/-! ## Repeated names -/

theorem eq_of_inOrder {a b : Program} (hab : inOrder a b = true) (hba : inOrder b a = true) : a = b := by
  have hname : a.name = b.name := String.le_antisymm (le_of_inOrder hab) (le_of_inOrder hba)
  rw [inOrder, if_pos hname, decide_eq_true_eq] at hab
  rw [inOrder, if_pos hname.symm, decide_eq_true_eq] at hba
  have hsource : a.source.text = b.source.text := String.le_antisymm hab hba
  obtain ⟨name, ⟨source⟩⟩ := a
  obtain ⟨name', ⟨source'⟩⟩ := b
  cases hname
  cases hsource
  rfl

/-- Of programs in order, the first two neighbours of one name have the least name that comes up twice. The induction is on the list: a
program whose neighbour has another name shares its own with none. -/
theorem of_firstRepeated {ps : List Program} {a b : Program} (hsorted : ps.Pairwise fun a b => inOrder a b = true)
    (h : firstRepeated ps = some (a, b)) :
    [a, b].Sublist ps ∧ a.name = b.name ∧ ∀ p ∈ ps, ∀ q ∈ ps, p ≠ q → p.name = q.name → a.name ≤ p.name := by
  induction ps with
  | nil => cases h
  | cons x ps ih =>
    cases ps with
    | nil => cases h
    | cons y ps =>
      obtain ⟨hx, hrest⟩ := List.pairwise_cons.1 hsorted
      unfold firstRepeated at h
      split at h
      · next hxy =>
        cases h
        refine ⟨List.Sublist.cons_cons _ (List.Sublist.cons_cons _ (List.nil_sublist _)), hxy, ?_⟩
        intro p hp q _ _ _
        rcases List.mem_cons.1 hp with rfl | hp
        · exact String.le_refl _
        · exact le_of_inOrder (hx p hp)
      · next hxy =>
        obtain ⟨hsub, hab, hleast⟩ := ih hrest h
        -- a later program of the name of the first would have the name of all between them
        have halone : ∀ q ∈ y :: ps, x.name ≠ q.name := by
          intro q hq hname
          refine hxy (String.le_antisymm (le_of_inOrder (hx y List.mem_cons_self)) ?_)
          rw [hname]
          rcases List.mem_cons.1 hq with rfl | hq
          · exact String.le_refl _
          · exact le_of_inOrder ((List.pairwise_cons.1 hrest).1 q hq)
        refine ⟨hsub.cons _, hab, ?_⟩
        intro p hp q hq hne hname
        rcases List.mem_cons.1 hp with rfl | hp
        · rcases List.mem_cons.1 hq with rfl | hq
          · exact absurd rfl hne
          · exact absurd hname (halone q hq)
        · rcases List.mem_cons.1 hq with heq | hq
          · exact absurd (heq ▸ hname.symm) (halone p hp)
          · exact hleast p hp q hq hne hname

/-! ## The search -/

section Search

variable {names : List String} {d : Place}

/-- The programs that names in a directory stand for are put in one order, whatever order the names come in. -/
theorem ofEntries_perm {names' : List String} (h : names.Perm names') : ofEntries t cwd dir names' = ofEntries t cwd dir names := by
  have hfound : (names'.filterMap (ofEntry t cwd dir)).mergeSort inOrder = (names.filterMap (ofEntry t cwd dir)).mergeSort inOrder := by
    refine List.Perm.eq_of_pairwise (fun a b _ _ => eq_of_inOrder) (List.pairwise_mergeSort inOrder_trans inOrder_total _)
      (List.pairwise_mergeSort inOrder_trans inOrder_total _) ?_
    exact ((List.mergeSort_perm _ _).trans (h.symm.filterMap _)).trans (List.mergeSort_perm _ _).symm
  unfold ofEntries
  rw [hfound]

/-- What names in a directory stand for depends on what paths resolve to, and on nothing else. -/
theorem ofEntry_congr (h : ∀ p node, t'.stat cwd p = .ok node ↔ t.stat cwd p = .ok node) : ofEntry t' cwd dir = ofEntry t cwd dir := by
  have hdir (p : Path) : t'.isDirectory cwd p = t.isDirectory cwd p := by
    rw [Bool.eq_iff_iff, Tree.isDirectory_iff, Tree.isDirectory_iff, h]
  have hfile (p : Path) : t'.isFile cwd p = t.isFile cwd p := by
    rw [Bool.eq_iff_iff, Tree.isFile_iff, Tree.isFile_iff]
    exact exists_congr fun f => h p _
  funext n
  unfold ofEntry
  simp only [hdir, hfile]

/-- Where no directory is, nothing is found. -/
theorem discover_of_no_directory {m : Machine} (h : m.tree.stat m.cwd dir ≠ .ok .directory) : discover dir m = .ok [] m :=
  if_neg (mt Tree.isDirectory_iff.1 h)

/-- Where a directory is, the names that it lists are gone through. -/
theorem discover_of_directory {m : Machine} (h : m.tree.entry m.cwd dir .through = .ok (d, .directory)) :
    discover dir m =
      match ofEntries m.tree m.cwd dir (m.tree.names d) with
      | .ok programs => .ok programs m
      | .error c => .error { cause := c } m := by
  have hnames : entryNames m.tree m.cwd dir = .ok (m.tree.names d) := by
    rw [entryNames, h]
  have hdir : m.tree.isDirectory m.cwd dir = true := Tree.isDirectory_iff.2 (Tree.stat_of_entry h)
  cases hfound : ofEntries m.tree m.cwd dir (m.tree.names d) with
  | ok programs => simp only [discover, hdir, if_true, hnames, hfound]
  | error c => simp only [discover, hdir, if_true, hnames, hfound]

/-- The order in which directories list their entries does not matter to the search. -/
theorem discover_relisted {m : Machine} (ht : m.tree.Distinct) (h : m.tree.Relisted t') :
    (∀ programs, discover dir { m with tree := t' } = .ok programs { m with tree := t' } ↔ discover dir m = .ok programs m) ∧
      ∀ f, discover dir { m with tree := t' } = .error f { m with tree := t' } ↔ discover dir m = .error f m := by
  by_cases hdir : m.tree.stat m.cwd dir = .ok .directory
  · obtain ⟨d, hd⟩ := Tree.stat_eq_ok.1 hdir
    have hnames : (m.tree.names d).Perm (t'.names d) := h.filterMap _
    have hentries : ofEntries t' m.cwd dir (t'.names d) = ofEntries m.tree m.cwd dir (m.tree.names d) := by
      rw [← ofEntries_perm hnames, ofEntries, ofEntries, ofEntry_congr fun p node => h.stat_eq_ok ht]
    rw [discover_of_directory hd, discover_of_directory (m := { m with tree := t' }) ((h.entry_eq_ok ht).2 hd), hentries]
    cases ofEntries m.tree m.cwd dir (m.tree.names d) <;> simp
  · rw [discover_of_no_directory hdir, discover_of_no_directory (m := { m with tree := t' }) (mt (h.stat_eq_ok ht).1 hdir)]
    simp

/-- The programs are two binaries of one name, and no two others have a smaller one. -/
def IsLeastRepeated (t : Tree) (cwd : Place) (dir : Path) (a b : Program) : Prop :=
  IsBinary t cwd dir a ∧ IsBinary t cwd dir b ∧ a ≠ b ∧ a.name = b.name ∧
    ∀ p q, IsBinary t cwd dir p → IsBinary t cwd dir q → p ≠ q → p.name = q.name → a.name ≤ p.name

variable (hw : t.WellNamed) (ht : t.Distinct) (h : t.entry cwd dir .through = .ok (d, .directory))
include hw ht

include h in
/-- The programs that the names of a directory's entries stand for are its binaries. -/
theorem mem_found : p ∈ (t.names d).filterMap (ofEntry t cwd dir) ↔ IsBinary t cwd dir p := by
  rw [List.mem_filterMap]
  constructor
  · rintro ⟨n, hn, hp⟩
    exact ⟨d, n, h, (Tree.mem_names ht).1 hn, (ofEntry_eq_some (hw.names d n hn)).1 hp⟩
  · rintro ⟨d', n, h', hn, hp⟩
    cases h.symm.trans h'
    have hmem := (Tree.mem_names ht).2 hn
    exact ⟨n, hmem, (ofEntry_eq_some (hw.names d n hmem)).2 hp⟩

/-- Each comes up once. -/
theorem nodup_found : ((t.names d).filterMap (ofEntry t cwd dir)).Nodup := by
  have hnames : (t.names d).Pairwise fun n n' => n ≠ n' ∧ IsFileName n ∧ IsFileName n' :=
    (Tree.nodup_names ht d).imp_of_mem fun hn hn' hne => ⟨hne, hw.names d _ hn, hw.names d _ hn'⟩
  refine List.Pairwise.filterMap _ ?_ hnames
  rintro n n' ⟨hne, hn, hn'⟩ p hp p' hp' rfl
  exact hne (((ofEntry_eq_some hn).1 hp).entry_unique hn hn' ((ofEntry_eq_some hn').1 hp'))

include h in
/-- Whether two binaries have one name decides what is made of the entries. -/
theorem ofEntries_cases :
    (∃ programs, ofEntries t cwd dir (t.names d) = .ok programs ∧ (∀ p, p ∈ programs ↔ IsBinary t cwd dir p) ∧
        programs.Pairwise fun a b => a.name < b.name) ∨
      ∃ a b, ofEntries t cwd dir (t.names d) = .error (.repeatedProgram a.name a.source b.source) ∧ IsLeastRepeated t cwd dir a b := by
  have hsorted : (((t.names d).filterMap (ofEntry t cwd dir)).mergeSort inOrder).Pairwise fun a b => inOrder a b = true :=
    List.pairwise_mergeSort inOrder_trans inOrder_total _
  have hperm := List.mergeSort_perm ((t.names d).filterMap (ofEntry t cwd dir)) inOrder
  have hmem (p : Program) : p ∈ ((t.names d).filterMap (ofEntry t cwd dir)).mergeSort inOrder ↔ IsBinary t cwd dir p :=
    hperm.mem_iff.trans (mem_found hw ht h)
  have hnodup := hperm.nodup_iff.2 (nodup_found hw ht)
  unfold ofEntries
  dsimp only
  generalize ((t.names d).filterMap (ofEntry t cwd dir)).mergeSort inOrder = found at *
  cases hrepeated : firstRepeated found with
  | none => exact Or.inl ⟨found, rfl, hmem, strict_of_firstRepeated hsorted hrepeated⟩
  | some ab =>
    obtain ⟨a, b⟩ := ab
    obtain ⟨hsub, hab, hleast⟩ := of_firstRepeated hsorted hrepeated
    refine Or.inr ⟨a, b, rfl, (hmem a).1 (hsub.subset (by simp)), (hmem b).1 (hsub.subset (by simp)), ?_, hab, ?_⟩
    · simpa using hnodup.sublist hsub
    · intro p q hp hq
      exact hleast p ((hmem p).2 hp) q ((hmem q).2 hq)

omit hw ht in
/-- What comes of a search. -/
theorem discover_cases {m : Machine} (hw : m.tree.WellNamed) (ht : m.tree.Distinct) (dir : Path) :
    (∃ programs, discover dir m = .ok programs m ∧ (∀ p, p ∈ programs ↔ IsBinary m.tree m.cwd dir p) ∧
        programs.Pairwise fun a b => a.name < b.name) ∨
      ∃ a b, discover dir m = .error { cause := .repeatedProgram a.name a.source b.source } m ∧
        IsLeastRepeated m.tree m.cwd dir a b := by
  by_cases hdir : m.tree.stat m.cwd dir = .ok .directory
  · obtain ⟨d, hd⟩ := Tree.stat_eq_ok.1 hdir
    rw [discover_of_directory hd]
    rcases ofEntries_cases hw ht hd with ⟨programs, hfound, hprograms⟩ | ⟨a, b, hfound, hab⟩
    · exact Or.inl ⟨programs, by rw [hfound], hprograms⟩
    · exact Or.inr ⟨a, b, by rw [hfound], hab⟩
  · refine Or.inl ⟨[], discover_of_no_directory hdir, fun p => ⟨nofun, ?_⟩, .nil⟩
    rintro ⟨d, n, hd, -, -⟩
    exact absurd (Tree.stat_of_entry hd) hdir

end Search

/-- Programs that come strictly in the order of their names have names of their own. -/
theorem eq_of_name_eq {ps : List Program} (h : ps.Pairwise fun a b => a.name < b.name) (hp : p ∈ ps) (hq : q ∈ ps)
    (hname : p.name = q.name) : p = q := by
  induction ps with
  | nil => cases hp
  | cons a ps ih =>
    obtain ⟨ha, hps⟩ := List.pairwise_cons.1 h
    rcases List.mem_cons.1 hp with rfl | hp
    · rcases List.mem_cons.1 hq with rfl | hq
      · rfl
      · exact absurd hname (String.ne_of_lt (ha q hq))
    · rcases List.mem_cons.1 hq with heq | hq
      · exact absurd (heq ▸ hname.symm) (String.ne_of_lt (ha p hp))
      · exact ih hps hp hq

/-- The search under a directory changes nothing and finds the directory's binaries, each once and strictly in the order of the bytes of
their names, exactly if no two of them have one name. Otherwise it fails with the least name that two of them have, and with the sources of
these two. Where the path resolves to no directory it finds none. The order of the table, in which directories list their entries, does not
matter. -/
theorem discover_exact (dir : Path) (m : Machine) (hw : m.tree.WellNamed) (ht : m.tree.Distinct) :
    (m.tree.stat m.cwd dir ≠ .ok .directory → discover dir m = .ok [] m) ∧
    ((∃ programs, discover dir m = .ok programs m) ↔
      ∀ p q, IsBinary m.tree m.cwd dir p → IsBinary m.tree m.cwd dir q → p.name = q.name → p = q) ∧
    (∀ programs m', discover dir m = .ok programs m' → m' = m ∧ (∀ p, p ∈ programs ↔ IsBinary m.tree m.cwd dir p) ∧
      programs.Pairwise fun a b => Text.encode a.name < Text.encode b.name) ∧
    (∀ f m', discover dir m = .error f m' → m' = m ∧ ∃ a b, f = { cause := .repeatedProgram a.name a.source b.source } ∧ a ≠ b ∧
      (∀ p, IsBinary m.tree m.cwd dir p ∧ p.name = a.name ↔ p = a ∨ p = b) ∧
      ∀ p q, IsBinary m.tree m.cwd dir p → IsBinary m.tree m.cwd dir q → p ≠ q → p.name = q.name →
        p.name = a.name ∨ Text.encode a.name < Text.encode p.name) ∧
    ∀ t', m.tree.Relisted t' →
      (∀ programs, discover dir { m with tree := t' } = .ok programs { m with tree := t' } ↔ discover dir m = .ok programs m) ∧
      ∀ f, discover dir { m with tree := t' } = .error f { m with tree := t' } ↔ discover dir m = .error f m := by
  refine ⟨discover_of_no_directory, ?_⟩
  rcases discover_cases hw ht dir with ⟨programs, hsearch, hmem, hstrict⟩ | ⟨a, b, hsearch, ha, hb, hne, hab, hleast⟩
  · refine ⟨⟨fun _ p q hp hq => ?_, fun _ => ⟨programs, hsearch⟩⟩, ?_, ?_, fun t' => discover_relisted ht⟩
    · exact eq_of_name_eq hstrict ((hmem p).2 hp) ((hmem q).2 hq)
    · intro found m' h
      cases hsearch.symm.trans h
      exact ⟨rfl, hmem, hstrict.imp Text.encode_lt_encode⟩
    · intro f m' h
      cases hsearch.symm.trans h
  · refine ⟨⟨?_, fun h => absurd (h a b ha hb hab) hne⟩, ?_, ?_, fun t' => discover_relisted ht⟩
    · rintro ⟨programs, h⟩
      cases hsearch.symm.trans h
    · intro programs m' h
      cases hsearch.symm.trans h
    · intro f m' h
      cases hsearch.symm.trans h
      refine ⟨rfl, a, b, rfl, hne, fun p => ⟨fun ⟨hp, hpa⟩ => ha.eq_or hb hne hab hp hpa, ?_⟩, ?_⟩
      · rintro (rfl | rfl)
        · exact ⟨ha, rfl⟩
        · exact ⟨hb, hab.symm⟩
      · intro p q hp hq hpq hname
        by_cases heq : p.name = a.name
        · exact Or.inl heq
        · refine Or.inr (Text.encode_lt_encode (String.not_le.1 fun hle => heq ?_))
          exact String.le_antisymm hle (hleast p q hp hq hpq hname)

/-- A machine with a source directory where a directory and a link that leads nowhere stand for programs of one name. -/
def sampleSources : Machine where
  tree := ⟨[(["src"], .directory), (["z.rs", "src"], .file (.new newFileMode)), (["x.rs.rs", "src"], .link ⟨"gone"⟩),
    (["x.rs", "src"], .directory), (["main.rs", "x.rs", "src"], .file (.new newFileMode)), ([".a.rs", "src"], .file (.new newFileMode))]⟩
  cwd := []
  searchPath := ""
  home := ⟨""⟩
  clock := 0

/-- The two programs of one name there. -/
theorem isBinary_sampleSources :
    IsBinary sampleSources.tree [] ⟨"src"⟩ ⟨"x.rs", ⟨"src/x.rs/main.rs"⟩⟩ ∧
      IsBinary sampleSources.tree [] ⟨"src"⟩ ⟨"x.rs", ⟨"src/x.rs.rs"⟩⟩ := by
  have hdir : sampleSources.tree.entry [] ⟨"src"⟩ .through = .ok (["src"], .directory) := by rfl
  constructor
  · have hmain : sampleSources.tree.isFile [] (((Path.mk "src").join ⟨"x.rs"⟩).join ⟨"main.rs"⟩) = true := by decide +kernel
    obtain ⟨f, hmain⟩ := Tree.isFile_iff.1 hmain
    exact ⟨["src"], "x.rs", hdir, by decide +kernel, .folder (by decide) (Tree.isDirectory_iff.1 (by decide +kernel)) hmain⟩
  · exact ⟨["src"], "x.rs" ++ ".rs", hdir, by decide +kernel,
      .source (by decide) (mt Tree.isDirectory_iff.2 (by decide +kernel)) (by decide)⟩

/-- The search there fails with a name that two programs have. -/
theorem discover_exact_sampleSources :
    sampleSources.tree.WellNamed ∧ sampleSources.tree.Distinct ∧
      ∃ name a b, discover ⟨"src"⟩ sampleSources = .error { cause := .repeatedProgram name a b } sampleSources := by
  have hw : sampleSources.tree.WellNamed := by decide
  have ht : sampleSources.tree.Distinct := by decide
  obtain ⟨-, hok, hsuccess, hfail, -⟩ := discover_exact ⟨"src"⟩ sampleSources hw ht
  obtain ⟨hfolder, hlink⟩ := isBinary_sampleSources
  refine ⟨hw, ht, ?_⟩
  cases h : discover ⟨"src"⟩ sampleSources with
  | ok programs m =>
    obtain ⟨rfl, -⟩ := hsuccess programs m h
    have hsame := congrArg (·.source.text) (hok.1 ⟨programs, h⟩ _ _ hfolder hlink rfl)
    exact absurd hsame (by decide)
  | error f m =>
    obtain ⟨rfl, a, b, rfl, -⟩ := hfail f m h
    exact ⟨a.name, a.source, b.source, rfl⟩

end Program

end BootDisk
