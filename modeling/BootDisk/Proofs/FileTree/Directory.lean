import BootDisk.Proofs.FileTree.Calls

/-!
# Names in one directory

Where the path of a name in a directory leads. The walk along it goes down to the directory first (`Tree.Descends`, `Tree.Reaches`) and
then takes the one step to the name, so that what it finds is what the table has at that place (`Tree.arrive_join`). The way down uses
directories and links only: a change at a place where neither stands leaves it as it is.
-/

namespace BootDisk

/-- A text that an entry of a directory can be called by. -/
structure IsFileName (n : String) : Prop where
  ne_nil : n.toList ≠ []
  no_slash : '/' ∉ n.toList
  ne_here : n.toList ≠ ['.']
  ne_up : n.toList ≠ ['.', '.']

instance (n : String) : Decidable (IsFileName n) :=
  decidable_of_iff (n.toList ≠ [] ∧ '/' ∉ n.toList ∧ n.toList ≠ ['.'] ∧ n.toList ≠ ['.', '.'])
    ⟨fun ⟨h₁, h₂, h₃, h₄⟩ => ⟨h₁, h₂, h₃, h₄⟩, fun h => ⟨h.ne_nil, h.no_slash, h.ne_here, h.ne_up⟩⟩

namespace TextAux

/-- A separator cuts a text in two, and each part is cut by itself. -/
theorem fields_append (sep : Char) (a b : List Char) : Text.fields sep (a ++ sep :: b) = Text.fields sep a ++ Text.fields sep b := by
  induction a with
  | nil => simp [Text.fields]
  | cons c a ih =>
    simp only [List.cons_append, Text.fields]
    by_cases hc : c = sep
    · rw [if_pos hc, if_pos hc, ih, List.cons_append]
    · rw [if_neg hc, if_neg hc, ih]
      cases h : Text.fields sep a with
      | nil => exact absurd h (Text.fields_ne_nil sep a)
      | cons f fs => rfl

/-- A text without a separator is one field. -/
theorem fields_of_not_mem {sep : Char} {a : List Char} (h : sep ∉ a) : Text.fields sep a = [a] := by
  induction a with
  | nil => rfl
  | cons c a ih =>
    have hc : c ≠ sep := fun hc => h (hc ▸ List.mem_cons_self)
    simp only [Text.fields, if_neg hc, ih fun hm => h (List.mem_cons_of_mem _ hm)]

theorem getLast?_append_of_ne_nil {α : Type} (a : List α) {b : List α} (h : b ≠ []) : (a ++ b).getLast? = b.getLast? := by
  rw [List.getLast?_append, List.getLast?_eq_some_getLast h, Option.some_or]

end TextAux

namespace Path

/-- The step for one part of a path. -/
def stepOf (cs : List Char) : Step :=
  if cs = ['.'] then .here else if cs = ['.', '.'] then .up else .name (String.ofList cs)

/-- The steps of a path, whether or not a slash follows. -/
def partSteps (p : Path) : List Step :=
  ((Text.fields '/' p.text.toList).filter (· ≠ [])).map stepOf

theorem steps_eq (p : Path) : p.steps = p.partSteps ++ if p.text.toList.getLast? = some '/' then [.slash] else [] := rfl

section Name

variable {n : String} (hn : IsFileName n)
include hn

theorem isAbsolute_name : (Path.mk n).isAbsolute = false := by
  unfold isAbsolute
  cases h : n.toList with
  | nil => rfl
  | cons c cs =>
    have hc : c ≠ '/' := fun hc => hn.no_slash (by rw [h, hc]; exact List.mem_cons_self)
    simp [hc]

theorem stepOf_name : stepOf n.toList = .name n := by
  rw [stepOf, if_neg hn.ne_here, if_neg hn.ne_up, String.ofList_toList]

/-- The path of a name in a directory is the directory's, a slash unless it is empty or has one at its end, and the name. -/
theorem toList_join (dir : Path) :
    (dir.join ⟨n⟩).text.toList =
      dir.text.toList ++ if dir.text.toList = [] ∨ dir.text.toList.getLast? = some '/' then n.toList else '/' :: n.toList := by
  unfold join
  rw [isAbsolute_name hn, if_neg nofun]
  split
  · rw [String.toList_append]
  · rw [String.toList_append, String.toList_append, List.append_assoc]
    rfl

/-- The parts of the path of a name in a directory are those of the directory and the name. -/
theorem parts_join (dir : Path) :
    (Text.fields '/' (dir.join ⟨n⟩).text.toList).filter (· ≠ []) =
      (Text.fields '/' dir.text.toList).filter (· ≠ []) ++ [n.toList] := by
  have hname : (Text.fields '/' n.toList).filter (· ≠ []) = [n.toList] := by
    rw [TextAux.fields_of_not_mem hn.no_slash]
    simp [hn.ne_nil]
  rw [toList_join hn]
  split
  · next h =>
    rcases h with h | h
    · rw [h, List.nil_append, hname]
      rfl
    · -- the slash that the directory ends in has nothing behind it but the name
      obtain ⟨cs, hcs⟩ := List.getLast?_eq_some_iff.1 h
      rw [hcs, List.append_assoc, List.singleton_append, TextAux.fields_append, TextAux.fields_append, List.filter_append,
        List.filter_append, hname]
      simp [Text.fields]
  · rw [TextAux.fields_append, List.filter_append, hname]

/-- The steps to a name in a directory are those to the directory, and one to the name. -/
theorem steps_join (dir : Path) : (dir.join ⟨n⟩).steps = dir.partSteps ++ [.name n] := by
  have hlast : (dir.join ⟨n⟩).text.toList.getLast? ≠ some '/' := by
    intro h
    have hmem : '/' ∈ n.toList := by
      rw [toList_join hn] at h
      split at h
      · rw [TextAux.getLast?_append_of_ne_nil _ hn.ne_nil] at h
        exact List.mem_of_getLast? h
      · rw [TextAux.getLast?_append_of_ne_nil _ (List.cons_ne_nil _ _), ← List.singleton_append,
          TextAux.getLast?_append_of_ne_nil _ hn.ne_nil] at h
        exact List.mem_of_getLast? h
    exact hn.no_slash hmem
  rw [steps_eq, if_neg hlast, List.append_nil, partSteps, parts_join hn, List.map_append, List.map_singleton, stepOf_name hn]
  rfl

/-- The path of a name in a directory starts to be walked where the directory's path does. -/
theorem startOf_join (cwd : Place) (dir : Path) : Tree.startOf cwd (dir.join ⟨n⟩) = Tree.startOf cwd dir := by
  have h : (dir.join ⟨n⟩).isAbsolute = dir.isAbsolute := by
    have hn' := isAbsolute_name hn
    unfold isAbsolute at hn' ⊢
    rw [toList_join hn]
    cases hd : dir.text.toList with
    | nil => simpa using hn'
    | cons c cs => rfl
  rw [Tree.startOf, Tree.startOf, h]

end Name

end Path

namespace Tree

/-! ## The way down -/

/-- The way along steps that are not the last: through directories and links, with so many links left at the start and at the end. -/
inductive Descends (t : Tree) : Nat → Place → List Step → Nat → Place → Prop where
  | done (links : Nat) (here : Place) : Descends t links here [] links here
  | here {links here rest l d} : Descends t links here rest l d → Descends t links here (.here :: rest) l d
  | slash {links here rest l d} : Descends t links here rest l d → Descends t links here (.slash :: rest) l d
  | up {links here rest l d} : Descends t links here.tail rest l d → Descends t links here (.up :: rest) l d
  | enter {links here rest s l d} : s.utf8ByteSize ≤ maxNameBytes → t.node? (s :: here) = some .directory →
      Descends t links (s :: here) rest l d → Descends t links here (.name s :: rest) l d
  | follow {links here rest s target l d} : s.utf8ByteSize ≤ maxNameBytes → t.node? (s :: here) = some (.link target) →
      Descends t links (startOf here target) (target.steps ++ rest) l d → Descends t (links + 1) here (.name s :: rest) l d

variable {t t' : Tree} {last : LastLink} {links l : Nat} {here d : Place} {steps : List Step} {a : Arrival} {q : Place} {n : String}

theorem atEnd_append_name (steps : List Step) (n : String) : Step.atEnd (steps ++ [.name n]) = none := by
  rcases steps with _ | ⟨step, _ | ⟨step', steps⟩⟩
  · rfl
  · cases step <;> rfl
  · cases step <;> rfl

/-- A walk that ends with a step to a name goes down to where that step is taken. -/
theorem Walks.descends (h : t.Walks last links here (steps ++ [.name n]) a) :
    ∃ l d, t.Descends links here steps l d ∧ t.Walks last l d [.name n] a := by
  generalize hall : steps ++ [.name n] = all at h
  induction h generalizing steps with
  | done links here => exact absurd hall (by simp)
  | here _ ih =>
    rcases List.append_eq_cons_iff.1 hall with ⟨-, h⟩ | ⟨steps, rfl, hrest⟩
    · cases h
    · obtain ⟨l, d, hd, hw⟩ := ih hrest.symm
      exact ⟨l, d, .here hd, hw⟩
  | slash _ ih =>
    rcases List.append_eq_cons_iff.1 hall with ⟨-, h⟩ | ⟨steps, rfl, hrest⟩
    · cases h
    · obtain ⟨l, d, hd, hw⟩ := ih hrest.symm
      exact ⟨l, d, .slash hd, hw⟩
  | up _ ih =>
    rcases List.append_eq_cons_iff.1 hall with ⟨-, h⟩ | ⟨steps, rfl, hrest⟩
    · cases h
    · obtain ⟨l, d, hd, hw⟩ := ih hrest.symm
      exact ⟨l, d, .up hd, hw⟩
  | @missing links here rest s slash hs he hn =>
    rcases List.append_eq_cons_iff.1 hall with ⟨rfl, h⟩ | ⟨steps, rfl, rfl⟩
    · rw [h]
      exact ⟨links, here, .done _ _, .missing hs he hn⟩
    · rw [atEnd_append_name] at he
      cases he
  | @stop links here rest s slash node hs he hn hl =>
    rcases List.append_eq_cons_iff.1 hall with ⟨rfl, h⟩ | ⟨steps, rfl, rfl⟩
    · rw [h]
      exact ⟨links, here, .done _ _, .stop hs he hn hl⟩
    · rw [atEnd_append_name] at he
      cases he
  | @enter links here rest s a hs he hn hw ih =>
    rcases List.append_eq_cons_iff.1 hall with ⟨rfl, h⟩ | ⟨steps, rfl, hrest⟩
    · rw [h]
      exact ⟨links, here, .done _ _, .enter hs he hn hw⟩
    · obtain ⟨l, d, hd, hw⟩ := ih hrest.symm
      exact ⟨l, d, .enter hs hn hd, hw⟩
  | @follow links here rest s target a hs hn hfl hw ih =>
    rcases List.append_eq_cons_iff.1 hall with ⟨rfl, h⟩ | ⟨steps, rfl, rfl⟩
    · rw [h]
      exact ⟨links + 1, here, .done _ _, .follow hs hn hfl hw⟩
    · obtain ⟨l, d, hd, hw⟩ := ih (List.append_assoc _ _ _)
      exact ⟨l, d, .follow hs hn hd, hw⟩

/-- Going down and then taking a step to a name is a walk. -/
theorem Descends.walks (h : t.Descends links here steps l d) (hw : t.Walks last l d [.name n] a) :
    t.Walks last links here (steps ++ [.name n]) a := by
  induction h with
  | done links here => exact hw
  | here _ ih => exact .here (ih hw)
  | slash _ ih => exact .slash (ih hw)
  | up _ ih => exact .up (ih hw)
  | enter hs hn _ ih => exact .enter hs (atEnd_append_name _ _) hn (ih hw)
  | follow hs hn _ ih =>
    have hw' := ih hw
    rw [List.append_assoc] at hw'
    rw [List.cons_append]
    refine .follow hs hn (fun slash he => ?_) hw'
    rw [atEnd_append_name] at he
    cases he

/-- Where trees differ at places only that are an end in one of them, steps that lead down in both lead to one place: a way down goes
through no end. -/
theorem Descends.same {l' : Nat} {d' : Place} (hsame : ∀ q, t'.node? q = t.node? q ∨ t.IsEnd q ∨ t'.IsEnd q)
    (h : t.Descends links here steps l d) (h' : t'.Descends links here steps l' d') : d' = d := by
  have hnode {q : Place} {n n' : Node} (hn : t.node? q = some n) (hn' : t'.node? q = some n') (hend : ¬ t.IsEnd q) (hend' : ¬ t'.IsEnd q) :
      n' = n := by
    rcases hsame q with heq | he | he
    · rw [hn, hn'] at heq
      exact Option.some.inj heq
    · exact absurd he hend
    · exact absurd he hend'
  have hdirectory {t : Tree} {q : Place} (hn : t.node? q = some .directory) : ¬ t.IsEnd q := fun he => he.1 hn
  have hlink {t : Tree} {q : Place} {target : Path} (hn : t.node? q = some (.link target)) : ¬ t.IsEnd q := fun he => he.2 target hn
  induction h with
  | done links here => cases h'; rfl
  | here _ ih => cases h' with | here h' => exact ih h'
  | slash _ ih => cases h' with | slash h' => exact ih h'
  | up _ ih => cases h' with | up h' => exact ih h'
  | enter hs hn _ ih =>
    cases h' with
    | enter _ _ h' => exact ih h'
    | follow _ hn' _ => cases hnode hn hn' (hdirectory hn) (hlink hn')
  | follow hs hn _ ih =>
    cases h' with
    | enter _ hn' _ => cases hnode hn hn' (hlink hn) (hdirectory hn')
    | follow _ hn' h' =>
      cases hnode hn hn' (hlink hn) (hlink hn')
      exact ih h'

/-- There is one way down only. -/
theorem Descends.unique {l' : Nat} {d' : Place} (h : t.Descends links here steps l d) (h' : t.Descends links here steps l' d') :
    d' = d :=
  h.same (fun _ => Or.inl rfl) h'

/-- A change at an end leaves the way down as it was. -/
theorem Descends.of_agree (ha : AgreeOff t t' q) (hend : t.IsEnd q) (h : t.Descends links here steps l d) :
    t'.Descends links here steps l d := by
  induction h with
  | done links here => exact .done links here
  | here _ ih => exact .here ih
  | slash _ ih => exact .slash ih
  | up _ ih => exact .up ih
  | enter hs hn _ ih => exact .enter hs ((ha _ (hend.ne_of_directory hn)).trans hn) ih
  | follow hs hn _ ih => exact .follow hs ((ha _ (hend.ne_of_link hn)).trans hn) ih

/-- A slash at the end of the way changes nothing. -/
theorem Descends.append_slash (h : t.Descends links here steps l d) : t.Descends links here (steps ++ [.slash]) l d := by
  induction h with
  | done links here => exact .slash (.done links here)
  | here _ ih => exact .here ih
  | slash _ ih => exact .slash ih
  | up _ ih => exact .up ih
  | enter hs hn _ ih => exact .enter hs hn ih
  | follow hs hn _ ih =>
    rw [List.append_assoc] at ih
    exact .follow hs hn ih

/-- Nor does it at the end of a way that has one. -/
theorem Descends.of_append_slash (h : t.Descends links here (steps ++ [.slash]) l d) : t.Descends links here steps l d := by
  generalize hall : steps ++ [.slash] = all at h
  induction h generalizing steps with
  | done links here => exact absurd hall (by simp)
  | here _ ih =>
    rcases List.append_eq_cons_iff.1 hall with ⟨-, h⟩ | ⟨steps, rfl, hrest⟩
    · cases h
    · exact .here (ih hrest.symm)
  | slash hd ih =>
    rcases List.append_eq_cons_iff.1 hall with ⟨rfl, h⟩ | ⟨steps, rfl, hrest⟩
    · cases h
      exact hd
    · exact .slash (ih hrest.symm)
  | up _ ih =>
    rcases List.append_eq_cons_iff.1 hall with ⟨-, h⟩ | ⟨steps, rfl, hrest⟩
    · cases h
    · exact .up (ih hrest.symm)
  | enter hs hn _ ih =>
    rcases List.append_eq_cons_iff.1 hall with ⟨-, h⟩ | ⟨steps, rfl, hrest⟩
    · cases h
    · exact .enter hs hn (ih hrest.symm)
  | follow hs hn _ ih =>
    rcases List.append_eq_cons_iff.1 hall with ⟨-, h⟩ | ⟨steps, rfl, rfl⟩
    · cases h
    · exact .follow hs hn (ih (List.append_assoc _ _ _))

/-- A walk that goes through links and ends at a directory is a way down to it. -/
theorem Walks.descends_of_directory {slash : Bool} (h : t.Walks .through links here steps (.found d .directory slash)) :
    ∃ l, t.Descends links here steps l d := by
  generalize ha : Arrival.found d .directory slash = a at h
  induction h with
  | done links here =>
    cases ha
    exact ⟨links, .done links _⟩
  | missing _ _ _ => cases ha
  | @stop links here rest s slash n hs he hn _ =>
    cases ha
    unfold Step.atEnd at he
    split at he
    · exact ⟨links, .enter hs hn (.done _ _)⟩
    · exact ⟨links, .enter hs hn (.slash (.done _ _))⟩
    · cases he
  | here _ ih => exact (ih ha).imp fun _ hd => .here hd
  | slash _ ih => exact (ih ha).imp fun _ hd => .slash hd
  | up _ ih => exact (ih ha).imp fun _ hd => .up hd
  | enter hs _ hn _ ih => exact (ih ha).imp fun _ hd => .enter hs hn hd
  | follow hs hn _ _ ih => exact (ih ha).imp fun _ hd => .follow hs hn hd

/-- A walk down goes to a directory, if links are gone through. -/
theorem Descends.walks_directory (h : t.Descends links here steps l d) :
    ∃ slash, t.Walks .through links here steps (.found d .directory slash) := by
  induction h with
  | done links here => exact ⟨false, .done links here⟩
  | here _ ih => exact ih.imp fun _ hw => .here hw
  | slash _ ih => exact ih.imp fun _ hw => .slash hw
  | up _ ih => exact ih.imp fun _ hw => .up hw
  | @enter links here rest s l d hs hn hrest ih =>
    cases hend : Step.atEnd rest with
    | none => exact ih.imp fun _ hw => .enter hs hend hn hw
    | some trailing =>
      have hd : d = s :: here := by
        unfold Step.atEnd at hend
        split at hend
        · exact hrest.unique (.done _ _) ▸ rfl
        · exact hrest.unique (.slash (.done _ _)) ▸ rfl
        · cases hend
      rw [hd]
      exact ⟨trailing, .stop hs hend hn nofun⟩
  | follow hs hn _ ih => exact ih.imp fun _ hw => .follow hs hn (fun _ _ => rfl) hw

/-! ## What stands under a name -/

/-- A directory's path leads down to a place, where names are looked for. -/
def Reaches (t : Tree) (cwd : Place) (dir : Path) (d : Place) : Prop :=
  ∃ l, t.Descends maxLinks (startOf cwd dir) dir.partSteps l d

/-- What a step to a name in a directory finds, if it goes through no link. -/
def under (t : Tree) (d : Place) (n : String) : Arrival :=
  match t.node? (n :: d) with
  | none => .vacant d n false
  | some node => .found (n :: d) node false

/-- A path to a name in a directory that calls accept. -/
def Nameable (dir : Path) (n : String) : Prop :=
  (dir.join ⟨n⟩).Accepted ∧ n.utf8ByteSize ≤ maxNameBytes

@[simp] theorem place_under (t : Tree) (d : Place) (n : String) : (t.under d n).place = n :: d := by
  unfold under
  split <;> rfl

@[simp] theorem node?_under (t : Tree) (d : Place) (n : String) : (t.under d n).node? = t.node? (n :: d) := by
  unfold under
  split
  · next h => rw [h]; rfl
  · next h => rw [h]; rfl

theorem under_of_some {t : Tree} {d : Place} {n : String} {node : Node} (h : t.node? (n :: d) = some node) :
    t.under d n = .found (n :: d) node false := by
  rw [under, h]

theorem under_of_none {t : Tree} {d : Place} {n : String} (h : t.node? (n :: d) = none) : t.under d n = .vacant d n false := by
  rw [under, h]

variable {cwd cwd' : Place} {dir : Path}

/-- One way down leads to one place. -/
theorem Reaches.unique {d' : Place} (h : t.Reaches cwd dir d) (h' : t.Reaches cwd dir d') : d' = d := by
  obtain ⟨_, h⟩ := h
  obtain ⟨_, h'⟩ := h'
  exact h.unique h'

theorem Reaches.same {d' : Place} (hsame : ∀ q, t'.node? q = t.node? q ∨ t.IsEnd q ∨ t'.IsEnd q) (h : t.Reaches cwd dir d)
    (h' : t'.Reaches cwd dir d') : d' = d := by
  obtain ⟨_, h⟩ := h
  obtain ⟨_, h'⟩ := h'
  exact h.same hsame h'

theorem Reaches.of_agree (ha : AgreeOff t t' q) (hend : t.IsEnd q) (h : t.Reaches cwd dir d) : t'.Reaches cwd dir d := by
  obtain ⟨l, h⟩ := h
  exact ⟨l, h.of_agree ha hend⟩

/-- One step to a name finds what stands there, unless it goes through a link. -/
theorem walks_name_of_never (hl : last.isFollowed false = false) :
    t.Walks last l d [.name n] a ↔ n.utf8ByteSize ≤ maxNameBytes ∧ a = t.under d n := by
  constructor
  · intro h
    cases h with
    | missing hs he hn =>
      cases he
      exact ⟨hs, by rw [under, hn]⟩
    | stop hs he hn _ =>
      cases he
      exact ⟨hs, by rw [under, hn]⟩
    | enter _ he _ _ => cases he
    | follow _ _ hfl _ =>
      rw [hfl false rfl] at hl
      cases hl
  · rintro ⟨hs, rfl⟩
    unfold under
    split
    · next h => exact .missing hs rfl h
    · next h => exact .stop hs rfl h fun _ => hl

/-- Where the path of a name in a directory leads, if a link under the name is not gone through: to what stands there. -/
theorem arrive_join (hn : IsFileName n) (hl : last.isFollowed false = false) :
    t.arrive cwd (dir.join ⟨n⟩) last = .ok a ↔ Nameable dir n ∧ ∃ d, t.Reaches cwd dir d ∧ a = t.under d n := by
  rw [arrive_eq_ok, Path.steps_join hn, Path.startOf_join hn]
  constructor
  · rintro ⟨hacc, hw⟩
    obtain ⟨l, d, hd, hw⟩ := hw.descends
    obtain ⟨hs, rfl⟩ := (walks_name_of_never hl).1 hw
    exact ⟨⟨hacc, hs⟩, d, ⟨l, hd⟩, rfl⟩
  · rintro ⟨⟨hacc, hs⟩, d, ⟨l, hd⟩, rfl⟩
    exact ⟨hacc, hd.walks ((walks_name_of_never hl).2 ⟨hs, rfl⟩)⟩

/-- Wherever the path of a name in a directory leads, the way to it leads down to the directory. -/
theorem reaches_of_arrive (hn : IsFileName n) (h : t.arrive cwd (dir.join ⟨n⟩) last = .ok a) :
    Nameable dir n ∧ ∃ d, t.Reaches cwd dir d := by
  rw [arrive_eq_ok, Path.steps_join hn, Path.startOf_join hn] at h
  obtain ⟨hacc, hw⟩ := h
  obtain ⟨l, d, hd, hw⟩ := hw.descends
  have hs : n.utf8ByteSize ≤ maxNameBytes := by
    cases hw with
    | missing hs _ _ => exact hs
    | stop hs _ _ _ => exact hs
    | enter hs _ _ _ => exact hs
    | follow hs _ _ _ => exact hs
  exact ⟨⟨hacc, hs⟩, d, l, hd⟩

/-- Where a path down leads, there is a directory. -/
theorem isDirectory_of_reaches (hacc : dir.Accepted) (h : t.Reaches cwd dir d) : t.isDirectory cwd dir = true := by
  obtain ⟨l, hd⟩ := h
  have hsteps : ∃ slash, t.Walks .through maxLinks (startOf cwd dir) dir.steps (.found d .directory slash) := by
    rw [Path.steps_eq]
    split
    · exact hd.append_slash.walks_directory
    · rw [List.append_nil]
      exact hd.walks_directory
  obtain ⟨slash, hw⟩ := hsteps
  have hentry : t.entry cwd dir .through = .ok (d, .directory) := entry_eq_ok.2 ⟨slash, arrive_eq_ok.2 ⟨hacc, hw⟩, fun _ => rfl⟩
  rw [isDirectory, stat_of_entry hentry]
  rfl

/-- Where a path resolves to a directory, it leads down to it. -/
theorem reaches_of_entry (h : t.entry cwd dir .through = .ok (d, .directory)) : t.Reaches cwd dir d := by
  obtain ⟨slash, harr, -⟩ := entry_eq_ok.1 h
  obtain ⟨l, hd⟩ := (arrive_eq_ok.1 harr).2.descends_of_directory
  refine ⟨l, ?_⟩
  rw [Path.steps_eq] at hd
  split at hd
  · exact hd.of_append_slash
  · rwa [List.append_nil] at hd

/-- The empty path leads nowhere but to where the work is done. -/
theorem reaches_of_empty (t : Tree) (cwd : Place) (hdir : dir.text = "") : t.Reaches cwd dir cwd := by
  obtain ⟨text⟩ := dir
  cases hdir
  exact ⟨maxLinks, .done _ _⟩

/-- Where calls accept the path of a name in a directory, they accept the directory's, unless it is empty. -/
theorem Nameable.accepted (hn : IsFileName n) (h : Nameable dir n) (hdir : dir.text ≠ "") : dir.Accepted := by
  obtain ⟨⟨hnul, -, hsize⟩, -⟩ := h
  have htext : ∃ rest, (dir.join ⟨n⟩).text = dir.text ++ rest := by
    unfold Path.join
    rw [Path.isAbsolute_name hn, if_neg nofun]
    split
    · exact ⟨n, rfl⟩
    · exact ⟨"/" ++ n, String.append_assoc⟩
  obtain ⟨rest, htext⟩ := htext
  refine ⟨?_, hdir, ?_⟩
  · unfold Path.hasNul at hnul ⊢
    rw [htext, String.toList_append, List.contains_append, Bool.or_eq_false_iff] at hnul
    exact hnul.1
  · rw [htext, String.utf8ByteSize_append] at hsize
    exact Nat.le_trans (Nat.le_add_right _ _) hsize

/-- Where no link stands under a name, its path leads there, whatever is done with links. -/
theorem arrive_of_no_link {p : Path} (h : t.arrive cwd p .never = .ok a) (hl : ∀ target, a.node? ≠ some (.link target))
    (last : LastLink) : t.arrive cwd p last = .ok a := by
  obtain ⟨hacc, hw⟩ := arrive_eq_ok.1 h
  exact arrive_eq_ok.2 ⟨hacc, hw.of_never hl last⟩

end Tree

end BootDisk
