import BootDisk.FileTree.Walk

/-!
# Where walks end

`Walks` tells a walk that ends well step by step, and `walkSteps_eq_ok` says that it tells every such walk; the statements about whole
walks are by induction on it. The main ones are about a tree that is changed at a single place. A walk can go on from a place only where
a directory or a link stands (`Tree.IsEnd` says that neither does), so a change at an end leaves every walk where it was
(`Walks.of_agree`).
-/

namespace BootDisk

/-- Whether no steps are left but possibly a slash, and whether that is left. -/
def Step.atEnd : List Step → Option Bool
  | [] => some false
  | [.slash] => some true
  | _ => none

namespace Arrival

/-- The place of an arrival: that of the node that was found, or that of the missing name. -/
def place : Arrival → Place
  | found place _ _ => place
  | vacant parent name _ => name :: parent

/-- Whether a slash followed. -/
def slash : Arrival → Bool
  | found _ _ slash => slash
  | vacant _ _ slash => slash

/-- What stands at the place of an arrival. -/
def node? : Arrival → Option Node
  | found _ n _ => some n
  | vacant _ _ _ => none

end Arrival

namespace Tree

/-! ## One step -/

/-- Goes through a link and on, if one more may be gone through. -/
def follow (t : Tree) (last : LastLink) : Nat → Place → Path → List Step → Except OsError Arrival
  | 0, _, _, _ => .error .tooManyLinks
  | links + 1, here, target, rest => t.walkSteps last links (startOf here target) (target.steps ++ rest)

section OneStep

variable (t : Tree) (last : LastLink) (links : Nat) (here : Place) (rest : List Step)

theorem walkSteps_nil : t.walkSteps last links here [] = .ok (.found here .directory false) := by
  cases links <;> rfl

theorem walkSteps_here : t.walkSteps last links here (.here :: rest) = t.walkSteps last links here rest := by
  cases links <;> rfl

theorem walkSteps_slash : t.walkSteps last links here (.slash :: rest) = t.walkSteps last links here rest := by
  cases links <;> rfl

theorem walkSteps_up : t.walkSteps last links here (.up :: rest) = t.walkSteps last links here.tail rest := by
  cases links <;> rfl

/-- All that a step to a name can do. A name that is missing or that is not gone through ends the walk, if only a slash is left. -/
theorem walkSteps_name (s : String) :
    t.walkSteps last links here (.name s :: rest) =
      if maxNameBytes < s.utf8ByteSize then .error .nameTooLong
      else
        match t.node? (s :: here), Step.atEnd rest with
        | none, some slash => .ok (.vacant here s slash)
        | none, none => .error .noEntry
        | some (.link target), some slash =>
          if last.isFollowed slash then t.follow last links here target rest
          else .ok (.found (s :: here) (.link target) slash)
        | some (.link target), none => t.follow last links here target rest
        | some .directory, none => t.walkSteps last links (s :: here) rest
        | some n, some slash => .ok (.found (s :: here) n slash)
        | some _, none => .error .notDirectory := by
  cases links <;>
  · simp only [walkSteps]
    conv => lhs; unfold walkToLink
    split
    · rfl
    · rcases rest with _ | ⟨r, _ | ⟨r', rest⟩⟩
      · cases t.node? (s :: here) with
        | none => rfl
        | some n => cases n <;> rfl
      · cases t.node? (s :: here) with
        | none => cases r <;> rfl
        | some n => cases n <;> cases r <;> rfl
      · cases t.node? (s :: here) with
        | none => cases r <;> rfl
        | some n => cases n <;> cases r <;> rfl

end OneStep

/-! ## Whole walks -/

/-- A walk that ends well, step by step: with so many links left it goes from a place along steps to an arrival. -/
inductive Walks (t : Tree) (last : LastLink) : Nat → Place → List Step → Arrival → Prop where
  | done (links : Nat) (here : Place) : Walks t last links here [] (.found here .directory false)
  | here {links here rest a} : Walks t last links here rest a → Walks t last links here (.here :: rest) a
  | slash {links here rest a} : Walks t last links here rest a → Walks t last links here (.slash :: rest) a
  | up {links here rest a} : Walks t last links here.tail rest a → Walks t last links here (.up :: rest) a
  | missing {links here rest s slash} : s.utf8ByteSize ≤ maxNameBytes → Step.atEnd rest = some slash →
      t.node? (s :: here) = none → Walks t last links here (.name s :: rest) (.vacant here s slash)
  | stop {links here rest s slash n} : s.utf8ByteSize ≤ maxNameBytes → Step.atEnd rest = some slash →
      t.node? (s :: here) = some n → (n.isLink = true → last.isFollowed slash = false) →
      Walks t last links here (.name s :: rest) (.found (s :: here) n slash)
  | enter {links here rest s a} : s.utf8ByteSize ≤ maxNameBytes → Step.atEnd rest = none →
      t.node? (s :: here) = some .directory → Walks t last links (s :: here) rest a →
      Walks t last links here (.name s :: rest) a
  | follow {links here rest s target a} : s.utf8ByteSize ≤ maxNameBytes → t.node? (s :: here) = some (.link target) →
      (∀ slash, Step.atEnd rest = some slash → last.isFollowed slash = true) →
      Walks t last links (startOf here target) (target.steps ++ rest) a →
      Walks t last (links + 1) here (.name s :: rest) a

variable {t t' : Tree} {last : LastLink} {links : Nat} {here : Place} {rest : List Step} {a : Arrival} {q : Place}

/-- A step to a name in a walk that ends well, given that going on from it is told by `Walks`. -/
theorem Walks.of_name {s : String} (hon : t.walkSteps last links (s :: here) rest = .ok a → t.Walks last links (s :: here) rest a)
    (hfollow : ∀ target, t.follow last links here target rest = .ok a → ∃ links', links = links' + 1 ∧
      t.Walks last links' (startOf here target) (target.steps ++ rest) a)
    (h : t.walkSteps last links here (.name s :: rest) = .ok a) : t.Walks last links here (.name s :: rest) a := by
  rw [walkSteps_name] at h
  by_cases hs : maxNameBytes < s.utf8ByteSize
  · rw [if_pos hs] at h
    cases h
  rw [if_neg hs] at h
  have hs : s.utf8ByteSize ≤ maxNameBytes := by omega
  cases hn : t.node? (s :: here) with
  | none =>
    cases he : Step.atEnd rest with
    | none => simp only [hn, he] at h; cases h
    | some slash =>
      simp only [hn, he, Except.ok.injEq] at h
      exact h ▸ Walks.missing hs he hn
  | some n =>
    cases he : Step.atEnd rest with
    | none =>
      cases n with
      | link target =>
        simp only [hn, he] at h
        obtain ⟨links', rfl, hw⟩ := hfollow target h
        exact Walks.follow hs hn (by simp [he]) hw
      | directory => simp only [hn, he] at h; exact Walks.enter hs he hn (hon h)
      | file f => simp only [hn, he] at h; cases h
      | device => simp only [hn, he] at h; cases h
    | some slash =>
      cases n with
      | link target =>
        simp only [hn, he] at h
        by_cases hl : last.isFollowed slash = true
        · rw [if_pos hl] at h
          obtain ⟨links', rfl, hw⟩ := hfollow target h
          refine Walks.follow hs hn ?_ hw
          intro slash' hslash'
          rw [← Option.some.inj (he.symm.trans hslash'), hl]
        · rw [if_neg hl, Except.ok.injEq] at h
          exact h ▸ Walks.stop hs he hn fun _ => by simpa using hl
      | directory => simp only [hn, he, Except.ok.injEq] at h; exact h ▸ Walks.stop hs he hn nofun
      | file f => simp only [hn, he, Except.ok.injEq] at h; exact h ▸ Walks.stop hs he hn nofun
      | device => simp only [hn, he, Except.ok.injEq] at h; exact h ▸ Walks.stop hs he hn nofun

/-- `Walks` tells every walk that ends well. The induction is on the links that are left and, for each number of them, on the steps. -/
theorem Walks.of_walkSteps (h : t.walkSteps last links here rest = .ok a) : t.Walks last links here rest a := by
  induction links using Nat.strongRecOn generalizing here rest with
  | _ links ihl =>
    induction rest generalizing here with
    | nil =>
      rw [walkSteps_nil, Except.ok.injEq] at h
      exact h ▸ Walks.done links here
    | cons step rest ih =>
      cases step with
      | here => exact Walks.here (ih (by rwa [walkSteps_here] at h))
      | slash => exact Walks.slash (ih (by rwa [walkSteps_slash] at h))
      | up => exact Walks.up (ih (by rwa [walkSteps_up] at h))
      | name s =>
        refine Walks.of_name ih ?_ h
        intro target hf
        cases links with
        | zero => cases hf
        | succ links' => exact ⟨links', rfl, ihl links' (Nat.lt_succ_self _) hf⟩

/-- A walk that `Walks` tells is one that ends well. -/
theorem Walks.walkSteps (h : t.Walks last links here rest a) : t.walkSteps last links here rest = .ok a := by
  induction h with
  | done links here => exact walkSteps_nil _ _ _ _
  | here _ ih => rw [walkSteps_here, ih]
  | slash _ ih => rw [walkSteps_slash, ih]
  | up _ ih => rw [walkSteps_up, ih]
  | missing hs he hn => rw [walkSteps_name, if_neg (by omega), hn, he]
  | @stop links here rest s slash n hs he hn hl =>
    rw [walkSteps_name, if_neg (by omega), hn, he]
    cases n with
    | link target => simp [hl rfl]
    | directory => rfl
    | file f => rfl
    | device => rfl
  | enter hs he hn _ ih => rw [walkSteps_name, if_neg (by omega), hn, he, ih]
  | @follow links here rest s target a hs hn hl _ ih =>
    rw [walkSteps_name, if_neg (by omega), hn]
    cases he : Step.atEnd rest with
    | none => exact ih
    | some slash => simp only [hl slash he, if_true]; exact ih

/-- A walk ends well exactly as `Walks` tells it. -/
theorem walkSteps_eq_ok : t.walkSteps last links here rest = .ok a ↔ t.Walks last links here rest a :=
  ⟨Walks.of_walkSteps, Walks.walkSteps⟩

/-- A walk ends in a directory that it came to without looking for it, or at a place where the tree has what the walk says. -/
theorem Walks.node? (h : t.Walks last links here rest a) :
    a.node? = some .directory ∨ (t.node? a.place = a.node? ∧ a.place ≠ []) := by
  induction h with
  | done links here => exact Or.inl rfl
  | missing _ _ hn => exact Or.inr ⟨hn, List.cons_ne_nil _ _⟩
  | stop _ _ hn _ => exact Or.inr ⟨hn, List.cons_ne_nil _ _⟩
  | here _ ih => exact ih
  | slash _ ih => exact ih
  | up _ ih => exact ih
  | enter _ _ _ _ ih => exact ih
  | follow _ _ _ _ ih => exact ih

/-! ## What a walk does with a link as its last step -/

/-- A walk that stops at any link, and ends at none, ends there whatever it does with a link as its last step. -/
theorem Walks.of_never (h : t.Walks .never links here rest a) (hl : ∀ target, a.node? ≠ some (.link target)) (last : LastLink) :
    t.Walks last links here rest a := by
  induction h with
  | done links here => exact Walks.done links here
  | missing hs he hn => exact Walks.missing hs he hn
  | @stop _ _ _ _ _ n hs he hn _ =>
    refine Walks.stop hs he hn ?_
    intro hlink
    cases n with
    | link target => exact absurd rfl (hl target)
    | directory => cases hlink
    | file f => cases hlink
    | device => cases hlink
  | here _ ih => exact Walks.here (ih hl)
  | slash _ ih => exact Walks.slash (ih hl)
  | up _ ih => exact Walks.up (ih hl)
  | enter hs he hn _ ih => exact Walks.enter hs he hn (ih hl)
  | @follow links here rest s target a hs hn hfl _ ih =>
    refine Walks.follow hs hn ?_ (ih hl)
    intro slash he
    cases hfl slash he

/-- A walk that goes through every link ends at none. -/
theorem Walks.node?_ne_link (h : t.Walks .through links here rest a) (target : Path) : a.node? ≠ some (.link target) := by
  induction h with
  | done links here => nofun
  | missing _ _ _ => nofun
  | stop _ _ _ hl =>
    intro h
    cases Option.some.inj h
    cases hl rfl
  | here _ ih => exact ih
  | slash _ ih => exact ih
  | up _ ih => exact ih
  | enter _ _ _ _ ih => exact ih
  | follow _ _ _ _ ih => exact ih

/-- Where any walk ends at something, the walk that stops at links does too. -/
theorem Walks.never_of_found {p : Place} {n : Node} {slash : Bool} (h : t.Walks last links here rest (.found p n slash)) :
    ∃ p' n' slash', t.Walks .never links here rest (.found p' n' slash') := by
  generalize ha : Arrival.found p n slash = a at h
  induction h with
  | done links here => exact ⟨_, _, _, Walks.done links here⟩
  | missing _ _ _ => cases ha
  | stop hs he hn _ => exact ⟨_, _, _, Walks.stop hs he hn fun _ => rfl⟩
  | here _ ih =>
    obtain ⟨p', n', slash', hw⟩ := ih ha
    exact ⟨p', n', slash', Walks.here hw⟩
  | slash _ ih =>
    obtain ⟨p', n', slash', hw⟩ := ih ha
    exact ⟨p', n', slash', Walks.slash hw⟩
  | up _ ih =>
    obtain ⟨p', n', slash', hw⟩ := ih ha
    exact ⟨p', n', slash', Walks.up hw⟩
  | enter hs he hn _ ih =>
    obtain ⟨p', n', slash', hw⟩ := ih ha
    exact ⟨p', n', slash', Walks.enter hs he hn hw⟩
  | @follow links here rest s target a hs hn _ _ ih =>
    cases he : Step.atEnd rest with
    | none =>
      obtain ⟨p', n', slash', hw⟩ := ih ha
      exact ⟨p', n', slash', Walks.follow hs hn (by simp [he]) hw⟩
    | some slash => exact ⟨_, _, _, Walks.stop hs he hn fun _ => rfl⟩

/-! ## Trees that differ at one place -/

/-- The trees are the same everywhere but at one place. -/
def AgreeOff (t t' : Tree) (q : Place) : Prop :=
  ∀ p, p ≠ q → t'.node? p = t.node? p

/-- Nothing stands at the place that a walk could go on from. -/
def IsEnd (t : Tree) (q : Place) : Prop :=
  t.node? q ≠ some .directory ∧ ∀ target, t.node? q ≠ some (.link target)

theorem AgreeOff.trans {t'' : Tree} (h : AgreeOff t t' q) (h' : AgreeOff t' t'' q) : AgreeOff t t'' q := by
  intro p hp
  rw [h' p hp, h p hp]

theorem AgreeOff.symm (h : AgreeOff t t' q) : AgreeOff t' t q := by
  intro p hp
  rw [h p hp]

theorem agreeOff_put (t : Tree) (q : Place) (n : Node) : AgreeOff t (t.put q n) q :=
  fun _ hp => node?_put_of_ne t n hp

theorem agreeOff_erase (t : Tree) (q : Place) : AgreeOff t (t.erase q) q :=
  fun _ hp => node?_erase_of_ne t hp

theorem isEnd_of_none (h : t.node? q = none) : t.IsEnd q := by
  rw [IsEnd, h]
  exact ⟨nofun, nofun⟩

theorem isEnd_of_file {f : File} (h : t.node? q = some (.file f)) : t.IsEnd q := by
  rw [IsEnd, h]
  exact ⟨nofun, nofun⟩

/-- A walk goes on only from places that are no end. -/
theorem IsEnd.ne_of_directory {p : Place} (h : t.IsEnd q) (hp : t.node? p = some .directory) : p ≠ q := by
  rintro rfl
  exact h.1 hp

theorem IsEnd.ne_of_link {p : Place} {target : Path} (h : t.IsEnd q) (hp : t.node? p = some (.link target)) : p ≠ q := by
  rintro rfl
  exact h.2 target hp

/-- A change at an end leaves a walk where it was. If that is the place of the change itself, the walk finds there what stands there
now, unless that is a link that it goes through. -/
theorem Walks.of_agree (ha : AgreeOff t t' q) (hend : t.IsEnd q) (h : t.Walks last links here rest a) :
    t'.Walks last links here rest a ∨
      (a.place = q ∧ a.node? = t.node? q ∧ ∀ n, t'.node? q = some n → (n.isLink = true → last.isFollowed a.slash = false) →
        t'.Walks last links here rest (.found q n a.slash)) := by
  induction h with
  | done links here => exact Or.inl (Walks.done links here)
  | @missing links here rest s slash hs he hn =>
    by_cases hq : s :: here = q
    · subst hq
      exact Or.inr ⟨rfl, hn.symm, fun n hn' hl => Walks.stop hs he hn' hl⟩
    · exact Or.inl (Walks.missing hs he (by rw [ha _ hq, hn]))
  | @stop links here rest s slash n hs he hn hl =>
    by_cases hq : s :: here = q
    · subst hq
      exact Or.inr ⟨rfl, hn.symm, fun n hn' hl' => Walks.stop hs he hn' hl'⟩
    · exact Or.inl (Walks.stop hs he (by rw [ha _ hq, hn]) hl)
  | here _ ih =>
    rcases ih with h | ⟨h₁, h₂, h₃⟩
    · exact Or.inl (Walks.here h)
    · exact Or.inr ⟨h₁, h₂, fun n hn hl => Walks.here (h₃ n hn hl)⟩
  | slash _ ih =>
    rcases ih with h | ⟨h₁, h₂, h₃⟩
    · exact Or.inl (Walks.slash h)
    · exact Or.inr ⟨h₁, h₂, fun n hn hl => Walks.slash (h₃ n hn hl)⟩
  | up _ ih =>
    rcases ih with h | ⟨h₁, h₂, h₃⟩
    · exact Or.inl (Walks.up h)
    · exact Or.inr ⟨h₁, h₂, fun n hn hl => Walks.up (h₃ n hn hl)⟩
  | enter hs he hn _ ih =>
    have hn' := (ha _ (hend.ne_of_directory hn)).trans hn
    rcases ih with h | ⟨h₁, h₂, h₃⟩
    · exact Or.inl (Walks.enter hs he hn' h)
    · exact Or.inr ⟨h₁, h₂, fun n hn hl => Walks.enter hs he hn' (h₃ n hn hl)⟩
  | follow hs hn hfl _ ih =>
    have hn' := (ha _ (hend.ne_of_link hn)).trans hn
    rcases ih with h | ⟨h₁, h₂, h₃⟩
    · exact Or.inl (Walks.follow hs hn' hfl h)
    · exact Or.inr ⟨h₁, h₂, fun n hn hl => Walks.follow hs hn' hfl (h₃ n hn hl)⟩

end Tree

end BootDisk
