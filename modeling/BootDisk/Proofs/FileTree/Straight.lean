import Mathlib.Data.List.Basic
import BootDisk.Proofs.FileTree.Growth
import BootDisk.Proofs.Path

/-!
# Paths without links

A path can be followed by its names alone: a step up gives up the last name (`Path.resolved`). This is where it leads in a tree, if no link
stands at one of the places that it passes (`Tree.Straight`, `Tree.Straight.place_of_entry`). The paths on the way to a directory pass no other
places than the directory's own path does (`Path.OnWay.stops`), so what is made on the way is made there.
-/

namespace BootDisk

/-- A part that is put back between separators is a field again. -/
theorem TextAux.fields_unfields {sep : Char} {fs : List (List Char)} (hne : fs ≠ []) (h : ∀ f ∈ fs, sep ∉ f) :
    Text.fields sep (Text.unfields sep fs) = fs := by
  induction fs with
  | nil => exact absurd rfl hne
  | cons f fs ih =>
    obtain ⟨hf, hfs⟩ := List.forall_mem_cons.1 h
    cases fs with
    | nil => rw [Text.unfields, fields_of_not_mem hf]
    | cons g gs =>
      rw [Text.unfields, fields_append, fields_of_not_mem hf, ih (List.cons_ne_nil _ _) hfs]
      · rfl
      · exact List.cons_ne_nil _ _

/-! ## Following steps by name -/

namespace Step

/-- Where steps lead from a place by their names alone: a step up gives up the last name, if there is one. -/
def resolve : Place → List Step → Place
  | base, [] => base
  | base, .here :: rest => resolve base rest
  | base, .slash :: rest => resolve base rest
  | base, .up :: rest => resolve base.tail rest
  | base, .name s :: rest => resolve (s :: base) rest

/-- The places that steps to a name lead to on the way. -/
def stops : Place → List Step → List Place
  | _, [] => []
  | base, .here :: rest => stops base rest
  | base, .slash :: rest => stops base rest
  | base, .up :: rest => stops base.tail rest
  | base, .name s :: rest => (s :: base) :: stops (s :: base) rest

/-- Whether a step leads anywhere else. -/
def isMove : Step → Bool
  | .up => true
  | .name _ => true
  | .here => false
  | .slash => false

variable {base q : Place} {steps : List Step} {slash : Bool}

theorem resolve_append (base : Place) (steps more : List Step) : resolve base (steps ++ more) = resolve (resolve base steps) more := by
  fun_induction resolve base steps with
  | case1 => rfl
  | case2 base rest ih => exact ih
  | case3 base rest ih => exact ih
  | case4 base rest ih => exact ih
  | case5 base s rest ih => exact ih

theorem stops_append (base : Place) (steps more : List Step) :
    stops base (steps ++ more) = stops base steps ++ stops (resolve base steps) more := by
  fun_induction stops base steps with
  | case1 => rfl
  | case2 base rest ih => exact ih
  | case3 base rest ih => exact ih
  | case4 base rest ih => exact ih
  | case5 base s rest ih => exact congrArg (_ :: ·) ih

/-- Only the moves count. -/
theorem resolve_moves (base : Place) (steps : List Step) : resolve base (steps.filter isMove) = resolve base steps := by
  fun_induction resolve base steps with
  | case1 => rfl
  | case2 base rest ih => exact ih
  | case3 base rest ih => exact ih
  | case4 base rest ih => exact ih
  | case5 base s rest ih => exact ih

theorem stops_moves (base : Place) (steps : List Step) : stops base (steps.filter isMove) = stops base steps := by
  fun_induction stops base steps with
  | case1 => rfl
  | case2 base rest ih => exact ih
  | case3 base rest ih => exact ih
  | case4 base rest ih => exact ih
  | case5 base s rest ih => exact congrArg (_ :: ·) ih

/-- Steps lead to a place that they pass, or to one on the way to where they start. -/
theorem resolve_mem_stops (base : Place) (steps : List Step) : resolve base steps ∈ stops base steps ∨ resolve base steps <:+ base := by
  fun_induction stops base steps with
  | case1 base => exact Or.inr (List.suffix_refl base)
  | case2 base rest ih => exact ih
  | case3 base rest ih => exact ih
  | case4 base rest ih => exact ih.imp_right fun h => h.trans (List.tail_suffix base)
  | case5 base s rest ih =>
    rcases ih with h | h
    · exact Or.inl (List.mem_cons_of_mem _ h)
    · rcases List.suffix_cons_iff.1 h with heq | hbelow
      · exact Or.inl (heq ▸ List.mem_cons_self)
      · exact Or.inr hbelow

/-- Steps that never go up lead below each place that they pass. -/
theorem suffix_of_mem_stops (hup : .up ∉ steps) (hq : q ∈ stops base steps) : q <:+ resolve base steps := by
  have hbelow (base : Place) (steps : List Step) (hup : .up ∉ steps) : base <:+ resolve base steps := by
    fun_induction resolve base steps with
    | case1 base => exact List.suffix_refl base
    | case2 base rest ih => exact ih (List.not_mem_of_not_mem_cons hup)
    | case3 base rest ih => exact ih (List.not_mem_of_not_mem_cons hup)
    | case4 base rest ih => exact absurd List.mem_cons_self hup
    | case5 base s rest ih => exact (List.suffix_cons s base).trans (ih (List.not_mem_of_not_mem_cons hup))
  fun_induction stops base steps with
  | case1 => cases hq
  | case2 base rest ih => exact ih (List.not_mem_of_not_mem_cons hup) hq
  | case3 base rest ih => exact ih (List.not_mem_of_not_mem_cons hup) hq
  | case4 base rest ih => exact absurd List.mem_cons_self hup
  | case5 base s rest ih =>
    rcases List.mem_cons.1 hq with rfl | hq
    · exact hbelow _ rest (List.not_mem_of_not_mem_cons hup)
    · exact ih (List.not_mem_of_not_mem_cons hup) hq

theorem resolve_of_atEnd (h : atEnd steps = some slash) (base : Place) : resolve base steps = base := by
  unfold atEnd at h
  split at h
  · rfl
  · rfl
  · cases h

end Step

namespace Path

variable {p q dir : Path} {n : String}

/-- Where a path leads from the root by its names alone. -/
def resolved (p : Path) : Place :=
  Step.resolve [] p.steps

/-- The places that a path passes from the root on, the last one among them. -/
def stops (p : Path) : List Place :=
  Step.stops [] p.steps

/-- The steps of a path that lead anywhere else. -/
def moves (p : Path) : List Step :=
  p.steps.filter Step.isMove

/-- The slash at the end of a path is no move. -/
theorem moves_eq (p : Path) : p.moves = p.partSteps.filter Step.isMove := by
  rw [moves, steps_eq, List.filter_append]
  split
  · exact List.append_nil _
  · exact List.append_nil _

theorem resolve_partSteps (p : Path) : Step.resolve [] p.partSteps = p.resolved := by
  rw [resolved, ← Step.resolve_moves [] p.steps, ← moves, moves_eq, Step.resolve_moves]

theorem stops_partSteps (p : Path) : Step.stops [] p.partSteps = p.stops := by
  rw [stops, ← Step.stops_moves [] p.steps, ← moves, moves_eq, Step.stops_moves]

theorem resolved_mem_stops (p : Path) (h : p.resolved ≠ []) : p.resolved ∈ p.stops :=
  (Step.resolve_mem_stops [] p.steps).resolve_right fun hnil => h (List.suffix_nil.1 hnil)

section Name

variable (hn : IsFileName n)
include hn

/-- The path of a name in a directory leads to that name where the directory's leads. -/
theorem resolved_join (dir : Path) : (dir.join ⟨n⟩).resolved = n :: dir.resolved := by
  rw [resolved, steps_join hn, Step.resolve_append, resolve_partSteps]
  rfl

theorem stops_join (dir : Path) : (dir.join ⟨n⟩).stops = dir.stops ++ [n :: dir.resolved] := by
  rw [stops, steps_join hn, Step.stops_append, stops_partSteps, resolve_partSteps]
  rfl

end Name

/-! ## Paths on the way -/

/-- The step for one component. -/
def stepOfComponent : Component → Step
  | .up => .up
  | .name cs => .name (String.ofList cs)
  | .root => .here
  | .here => .here

/-- A component that a path can have behind its start. -/
def IsInner (c : Component) : Prop :=
  c = .up ∨ ∃ cs, c = .name cs ∧ cs ≠ [] ∧ '/' ∉ cs ∧ cs ≠ ['.'] ∧ cs ≠ ['.', '.']

/-- The component for one part of a path, if it is one. -/
def componentOf (cs : List Char) : Option Component :=
  if cs = [] ∨ cs = ['.'] then none else if cs = ['.', '.'] then some .up else some (.name cs)

theorem components_of_absolute (h : p.isAbsolute = true) :
    p.components = .root :: (Text.fields '/' p.text.toList).filterMap componentOf := by
  rw [components, h]
  rfl

theorem isInner_of_componentOf {cs : List Char} {c : Component} (hcs : '/' ∉ cs) (h : componentOf cs = some c) : IsInner c := by
  unfold componentOf at h
  split at h
  · cases h
  · next hne =>
    rw [not_or] at hne
    split at h
    · cases h
      exact Or.inl rfl
    · next hup =>
      cases h
      exact Or.inr ⟨cs, rfl, hne.1, hcs, hne.2, hup⟩

/-- A component that stands behind a start is told by its text. -/
theorem IsInner.componentOf {c : Component} (h : IsInner c) : componentOf (componentText c) = some c ∧ '/' ∉ componentText c := by
  rcases h with rfl | ⟨cs, rfl, hne, hslash, hhere, hup⟩
  · exact ⟨rfl, by decide⟩
  · refine ⟨?_, hslash⟩
    rw [Path.componentOf, componentText, if_neg (not_or.2 ⟨hne, hhere⟩), if_neg hup]

/-- The moves of a path are its components behind the start. -/
theorem moves_of_parts (p : Path) : p.moves = ((Text.fields '/' p.text.toList).filterMap componentOf).map stepOfComponent := by
  rw [moves_eq, partSteps]
  induction Text.fields '/' p.text.toList with
  | nil => rfl
  | cons cs parts ih =>
    by_cases hnil : cs = []
    · subst hnil
      exact ih
    have hpart : (cs :: parts).filter (· ≠ []) = cs :: parts.filter (· ≠ []) := List.filter_cons_of_pos (decide_eq_true hnil)
    rw [hpart, List.map_cons]
    by_cases hhere : cs = ['.']
    · subst hhere
      exact ih
    by_cases hup : cs = ['.', '.']
    · subst hup
      exact congrArg (.up :: ·) ih
    · have hcomponent : componentOf cs = some (.name cs) := by
        rw [componentOf, if_neg (not_or.2 ⟨hnil, hhere⟩), if_neg hup]
      have hstep : stepOf cs = .name (String.ofList cs) := by rw [stepOf, if_neg hhere, if_neg hup]
      rw [List.filterMap_cons_some hcomponent, hstep]
      exact congrArg (.name (String.ofList cs) :: ·) ih

/-- The path that is made of a root and components behind it is absolute, and has these. -/
theorem ofComponents_root {cs : List Component} (hcs : ∀ c ∈ cs, IsInner c) :
    (ofComponents (.root :: cs)).isAbsolute = true ∧ (ofComponents (.root :: cs)).moves = cs.map stepOfComponent := by
  cases cs with
  | nil => exact ⟨rfl, rfl⟩
  | cons c cs =>
    have htext : (ofComponents (.root :: c :: cs)).text.toList = '/' :: Text.unfields '/' ((c :: cs).map componentText) := by
      rw [ofComponents, String.toList_ofList]
      · rfl
      · nofun
    have hslash : ∀ f ∈ (c :: cs).map componentText, '/' ∉ f := by
      intro f hf
      obtain ⟨d, hd, rfl⟩ := List.mem_map.1 hf
      exact (hcs d hd).componentOf.2
    refine ⟨by rw [isAbsolute, htext]; rfl, ?_⟩
    rw [moves_of_parts, htext, ← List.nil_append ('/' :: _), TextAux.fields_append, TextAux.fields_unfields (by simp) hslash,
      List.filterMap_append, List.filterMap_map]
    refine congrArg (List.map stepOfComponent) ?_
    have hall : (c :: cs).filterMap (componentOf ∘ componentText) = (c :: cs).filterMap some :=
      List.filterMap_congr fun d hd => (hcs d hd).componentOf.1
    rw [hall, List.filterMap_some]
    rfl

/-- The path one level up from an absolute path is absolute, and has its moves but the last. -/
theorem moves_of_parent (hp : p.isAbsolute = true) (h : p.parent? = some q) : q.isAbsolute = true ∧ q.moves = p.moves.dropLast := by
  have hinner : ∀ c ∈ (Text.fields '/' p.text.toList).filterMap componentOf, IsInner c := by
    intro c hc
    obtain ⟨cs, hcs, hc⟩ := List.mem_filterMap.1 hc
    exact isInner_of_componentOf (TextAux.not_mem_of_mem_fields hcs) hc
  rw [parent?, components_of_absolute hp] at h
  rw [moves_of_parts p]
  generalize (Text.fields '/' p.text.toList).filterMap componentOf = cs at h hinner
  rcases List.eq_nil_or_concat cs with rfl | ⟨front, c, rfl⟩
  · cases h
  · rw [List.concat_eq_append] at h hinner ⊢
    obtain ⟨habsolute, hmoves⟩ := ofComponents_root fun d hd => hinner d (List.mem_append_left _ hd)
    have hq : q = ofComponents (.root :: front) := by
      rw [← List.cons_append, List.reverse_append] at h
      rcases hinner c (List.mem_append_right _ List.mem_cons_self) with rfl | ⟨cs, rfl, -⟩
      · simpa using h.symm
      · simpa using h.symm
    rw [hq, List.map_append, List.map_singleton, List.dropLast_concat]
    exact ⟨habsolute, hmoves⟩

/-- A path on the way to an absolute path is absolute, and has its first moves. -/
theorem OnWay.moves (hdir : dir.isAbsolute = true) (h : p.OnWay dir) : p.isAbsolute = true ∧ p.moves <+: dir.moves := by
  induction h with
  | whole p => exact ⟨hdir, List.prefix_refl _⟩
  | part hparent _ ih =>
    obtain ⟨habsolute, hmoves⟩ := moves_of_parent hdir hparent
    obtain ⟨hp, hprefix⟩ := ih habsolute
    rw [hmoves] at hprefix
    exact ⟨hp, hprefix.trans (List.dropLast_prefix _)⟩

/-- So it passes no other places. -/
theorem OnWay.stops (hdir : dir.isAbsolute = true) (h : p.OnWay dir) : p.stops <+: dir.stops := by
  obtain ⟨more, hmore⟩ := (h.moves hdir).2
  have hstops (p : Path) : p.stops = Step.stops [] p.moves := (Step.stops_moves [] p.steps).symm
  rw [hstops p, hstops dir, ← hmore, Step.stops_append]
  exact List.prefix_append _ _

end Path

/-! ## Walks without links -/

namespace Tree

variable {t t' : Tree} {cwd here d q : Place} {p dir : Path} {last : LastLink} {links l : Nat} {steps : List Step} {a : Arrival} {n : Node}
variable {name : String}

/-- No link stands at a place that the path passes. -/
def Straight (t : Tree) (p : Path) : Prop :=
  ∀ q ∈ p.stops, ∀ target, t.node? q ≠ some (.link target)

instance (t : Tree) (p : Path) : Decidable (t.Straight p) :=
  decidable_of_iff (∀ q ∈ p.stops, (t.node? q).any Node.isLink = false) <| by
    refine forall₂_congr fun q _ => ?_
    cases t.node? q with
    | none => exact iff_of_true rfl nofun
    | some n => cases n <;> simp [Node.isLink]

/-- A walk that meets no link ends where its names say. -/
theorem Walks.place_eq_resolve (h : t.Walks last links here steps a)
    (hs : ∀ q ∈ Step.stops here steps, ∀ target, t.node? q ≠ some (.link target)) : a.place = Step.resolve here steps := by
  induction h with
  | done links here => rfl
  | here _ ih => exact ih hs
  | slash _ ih => exact ih hs
  | up _ ih => exact ih hs
  | missing _ he _ => exact (Step.resolve_of_atEnd he _).symm
  | stop _ he _ _ => exact (Step.resolve_of_atEnd he _).symm
  | enter _ _ _ _ ih => exact ih fun q hq => hs q (List.mem_cons_of_mem _ hq)
  | follow _ hn _ _ _ => exact absurd hn (hs _ List.mem_cons_self _)

/-- So does a way down, and all it passes are directories. -/
theorem Descends.eq_resolve (h : t.Descends links here steps l d)
    (hs : ∀ q ∈ Step.stops here steps, ∀ target, t.node? q ≠ some (.link target)) :
    d = Step.resolve here steps ∧ ∀ q ∈ Step.stops here steps, t.node? q = some .directory := by
  induction h with
  | done links here => exact ⟨rfl, nofun⟩
  | here _ ih => exact ih hs
  | slash _ ih => exact ih hs
  | up _ ih => exact ih hs
  | enter _ hn _ ih =>
    obtain ⟨hd, hdirs⟩ := ih fun q hq => hs q (List.mem_cons_of_mem _ hq)
    exact ⟨hd, List.forall_mem_cons.2 ⟨hn, hdirs⟩⟩
  | follow _ hn _ _ => exact absurd hn (hs _ List.mem_cons_self _)

theorem startOf_absolute (h : p.isAbsolute = true) (cwd : Place) : startOf cwd p = [] :=
  if_pos h

/-- A path that passes no link leads where its names say. -/
theorem Straight.place_of_entry (hs : t.Straight p) (hp : p.isAbsolute = true) (h : t.entry cwd p last = .ok (q, n)) : q = p.resolved := by
  obtain ⟨slash, harr, -⟩ := entry_eq_ok.1 h
  obtain ⟨-, hw⟩ := arrive_eq_ok.1 harr
  rw [startOf_absolute hp] at hw
  exact hw.place_eq_resolve hs

theorem Straight.eq_resolved (hs : t.Straight dir) (hdir : dir.isAbsolute = true) (h : t.Reaches cwd dir d) :
    d = dir.resolved ∧ ∀ q ∈ dir.stops, t.node? q = some .directory := by
  obtain ⟨l, hd⟩ := h
  rw [startOf_absolute hdir] at hd
  rw [Straight, ← Path.stops_partSteps] at hs
  rw [← Path.resolve_partSteps, ← Path.stops_partSteps]
  exact hd.eq_resolve hs

theorem Straight.place_of_reaches (hs : t.Straight dir) (hdir : dir.isAbsolute = true) (h : t.Reaches cwd dir d) : d = dir.resolved :=
  (hs.eq_resolved hdir h).1

/-- A directory is where the names of a path that leads down say. -/
theorem Straight.node?_of_reaches (hs : t.Straight dir) (hdir : dir.isAbsolute = true) (h : t.Reaches cwd dir d) :
    t.node? dir.resolved = some .directory := by
  by_cases hroot : dir.resolved = []
  · rw [hroot, node?_nil]
  · exact (hs.eq_resolved hdir h).2 _ (dir.resolved_mem_stops hroot)

/-- What is found at the path of a name in a directory stands where its names say. -/
theorem Straight.node?_of_entry (hs : t.Straight (dir.join ⟨name⟩)) (hdir : dir.isAbsolute = true) (hname : IsFileName name)
    (h : t.entry cwd (dir.join ⟨name⟩) .through = .ok (q, n)) : t.node? (name :: dir.resolved) = some n := by
  obtain ⟨slash, harr, -⟩ := entry_eq_ok.1 h
  obtain ⟨-, hw⟩ := arrive_eq_ok.1 harr
  rw [Path.steps_join hname, Path.startOf_join hname, startOf_absolute hdir] at hw
  rw [Straight, Path.stops_join hname] at hs
  obtain ⟨l, d, hd, hlast⟩ := hw.descends
  rw [← startOf_absolute hdir cwd] at hd
  obtain rfl : d = dir.resolved := Straight.place_of_reaches (fun q hq => hs q (List.mem_append_left _ hq)) hdir ⟨l, hd⟩
  cases hlast with
  | stop _ _ hn _ => exact hn
  | enter _ he _ _ => cases he
  | follow _ hn _ _ => exact absurd hn (hs _ (List.mem_append_right _ List.mem_cons_self) _)

/-- A path that passes no link passes none when directories have been added. -/
theorem Straight.of_growsBy (hs : t.Straight p) (h : t.GrowsBy t') : t'.Straight p := by
  intro q hq target hlink
  rcases h q with hsame | ⟨-, hdir⟩
  · exact hs q hq target (hsame.symm.trans hlink)
  · cases hdir.symm.trans hlink

/-- A path that passes no link to a name passes none to its directory. -/
theorem Straight.of_join (hname : IsFileName name) (hs : t.Straight (dir.join ⟨name⟩)) : t.Straight dir := by
  rw [Straight, Path.stops_join hname] at hs
  exact fun q hq => hs q (List.mem_append_left _ hq)

/-- Nor does it when a file has been put somewhere. -/
theorem Straight.of_file {f : File} (hs : t.Straight p) (h : AgreeOff t t' q) (hq : t'.node? q = some (.file f)) : t'.Straight p := by
  intro q' hq' target hlink
  by_cases heq : q' = q
  · subst heq
    cases hq.symm.trans hlink
  · exact hs q' hq' target ((h q' heq).symm.trans hlink)

/-- A path that passes no link, neither does one on its way. -/
theorem Straight.of_onWay (hs : t.Straight dir) (hdir : dir.isAbsolute = true) (h : p.OnWay dir) : t.Straight p :=
  fun q hq => hs q ((h.stops hdir).subset hq)

/-- A directory that is made on the way is at a place that the path passes. -/
theorem GrowsAlong.stops (h : t.GrowsAlong t' cwd dir) (hs : t.Straight dir) (hdir : dir.isAbsolute = true) (hne : t'.node? q ≠ t.node? q) :
    q ∈ dir.stops ∧ t.node? q = none ∧ t'.node? q = some .directory := by
  rcases h q with hsame | ⟨hnone, hmade, p, hp, hentry⟩
  · exact absurd hsame hne
  · have hstraight : t'.Straight p := (hs.of_growsBy h.growsBy).of_onWay hdir hp
    obtain rfl := hstraight.place_of_entry (hp.moves hdir).1 hentry
    have hroot : p.resolved ≠ [] := by
      intro hnil
      rw [hnil, node?_nil] at hnone
      cases hnone
    exact ⟨(hp.stops hdir).subset (p.resolved_mem_stops hroot), hnone, hmade⟩

end Tree

end BootDisk
