import BootDisk.Proofs.FileTree.Growth
import BootDisk.Proofs.Staging.Rebuild

/-!
# What a staging leaves alone

Whatever the tools do, a staging itself changes the tree in two ways only: it makes directories on the way to the install directory, and it
changes what stands under the programs' names there (`Install.ChangesUnder`). A run is looked at in the sessions between its parts
(`Staging.moments`); `Staging.Step` says all that can happen between two of them, so that whatever is not as it was at the start is accounted
for by one of the steps. A link at an install path is taken away, never gone through: what it leads to is as it was.
-/

namespace BootDisk

namespace Install

variable {m m' : Machine} {dir : Path} {n : String} {d : Place}

/-- At most what stands under the name in the directory has changed, and that was no directory. -/
def ChangesUnder (dir : Path) (n : String) (m m' : Machine) : Prop :=
  m'.tree = m.tree ∨
    ∃ d, m.Reaches dir d ∧ Tree.AgreeOff m.tree m'.tree (n :: d) ∧ m.tree.node? (n :: d) ≠ some .directory

/-- Taking hold of an install path, well or not, changes nothing else. -/
theorem placeholder_changesUnder (hn : IsFileName n) (dir : Path) (m : Machine) :
    ChangesUnder dir n m (endOf (placeholder (dir.join ⟨n⟩) m)) := by
  have hheld := held hn dir m
  generalize placeholder (dir.join ⟨n⟩) m = r at hheld
  cases hheld with
  | lost e _ => exact Or.inl rfl
  | refused e d _ => exact Or.inl rfl
  | kept d node _ _ _ => exact Or.inl rfl
  | made d hseek =>
    obtain ⟨-, hd, hnode⟩ := Machine.of_seek hn hseek rfl
    exact Or.inr ⟨d, hd, Tree.agreeOff_put _ _ _, by rw [hnode]; nofun⟩
  | replaced d target hseek _ =>
    obtain ⟨-, hd, hnode⟩ := Machine.of_seek hn hseek rfl
    exact Or.inr ⟨d, hd, (Tree.agreeOff_erase _ _).trans (Tree.agreeOff_put _ _ _), by rw [hnode]; nofun⟩
  | cutOff e d target hseek =>
    obtain ⟨-, hd, hnode⟩ := Machine.of_seek hn hseek rfl
    exact Or.inr ⟨d, hd, Tree.agreeOff_erase _ _, by rw [hnode]; nofun⟩

/-! ## Putting in, whatever stands there -/

/-- Puts a binary at a path where no link stands. -/
def fillIn (binary path : Path) : Act Unit := do
  during (.copying binary path) (Act.files fun cwd => FileCall.copy cwd binary path)
  makeExecutable path

/-- After the link has been removed, the rest of putting a binary in is done. -/
theorem copyIn_of_removeLink {binary path : Path} (h : removeLink path m = .ok () m') : copyIn binary path m = fillIn binary path m' :=
  bind_of_ok h

/-- A copy that fails leaves everything as it is. -/
theorem endOf_fillIn_of_error {binary path : Path} {e : IoError} (h : FileCall.copy m.cwd binary path m.tree = .error e m.tree) :
    endOf (fillIn binary path m) = m := by
  rw [fillIn, bind_of_error (during_of_error (Act.files_of_error (fun cwd => FileCall.copy cwd binary path) h)), endOf_error]

/-- Where the path cannot be opened, nothing is copied. -/
theorem copy_of_openCreate_error {t : Tree} {cwd : Place} (binary path : Path)
    (h : ∀ mode, ∃ e, FileCall.openCreate cwd path mode t = .error e t) : ∃ e, FileCall.copy cwd binary path t = .error e t := by
  unfold FileCall.copy
  split
  · exact ⟨_, rfl⟩
  · next origin f _ =>
    obtain ⟨e, he⟩ := h (Nat.land f.mode creationMask)
    rw [he]
    exact ⟨e, rfl⟩
  · exact ⟨_, rfl⟩

theorem endOf_fillIn_of_lost (hn : IsFileName n) (binary : Path) (h : ∀ a, m.seek dir n ≠ .ok a) :
    endOf (fillIn binary (dir.join ⟨n⟩) m) = m := by
  obtain ⟨e, he⟩ := copy_of_openCreate_error binary (dir.join ⟨n⟩) fun mode => openCreate_of_lost hn mode h
  exact endOf_fillIn_of_error he

/-- Where nothing stands under the name, putting a binary in changes nothing else. -/
theorem fillIn_agreeOff (hn : IsFileName n) (hname : Tree.Nameable dir n) (hd : m.Reaches dir d) (hnone : m.tree.node? (n :: d) = none)
    (binary : Path) : Tree.AgreeOff m.tree (endOf (fillIn binary (dir.join ⟨n⟩) m)).tree (n :: d) := by
  by_cases hs : ∃ origin f, m.tree.entry m.cwd binary .through = .ok (origin, .file f)
  · obtain ⟨origin, f, hs⟩ := hs
    obtain ⟨g, hcopy⟩ : ∃ g, FileCall.copy m.cwd binary (dir.join ⟨n⟩) m.tree =
        .ok () ((m.tree.put (n :: d) (.file (.new (Nat.land f.mode creationMask)))).put (n :: d) (.file g)) :=
      ⟨_, copy_to_file hs (openCreate_of_none hn (Nat.land f.mode creationMask) hname hd hnone)⟩
    have hfiles := Act.files_of_ok (fun cwd => FileCall.copy cwd binary (dir.join ⟨n⟩)) hcopy
    have ha := (Tree.agreeOff_put m.tree (n :: d) (.file (.new (Nat.land f.mode creationMask)))).trans
      (Tree.agreeOff_put _ (n :: d) (.file g))
    have hnode := Tree.node?_put_self (m.tree.put (n :: d) (.file (.new (Nat.land f.mode creationMask)))) (n :: d) (.file g)
      (List.cons_ne_nil _ _)
    generalize (m.tree.put (n :: d) (.file (.new (Nat.land f.mode creationMask)))).put (n :: d) (.file g) = t at hfiles ha hnode
    have hentry : t.entry m.cwd (dir.join ⟨n⟩) .through = .ok (n :: d, .file g) := by
      have harr : t.arrive m.cwd (dir.join ⟨n⟩) .never = .ok (.found (n :: d) (.file g) false) :=
        (Tree.arrive_join hn rfl).2 ⟨hname, d, hd.of_agree ha (Tree.isEnd_of_none hnone), (Tree.under_of_some hnode).symm⟩
      exact Tree.entry_eq_ok.2 ⟨false, Tree.arrive_of_no_link harr nofun .through, nofun⟩
    rw [fillIn, bind_of_ok (during_eq_ok.2 hfiles), makeExecutable_of_file (m := { m with tree := t }) hentry]
    exact ha.trans (Tree.agreeOff_put t _ _)
  · obtain ⟨e, he⟩ : ∃ e, FileCall.copy m.cwd binary (dir.join ⟨n⟩) m.tree = .error e m.tree :=
      copy_of_no_file (dir.join ⟨n⟩) fun origin f h => hs ⟨origin, f, h⟩
    rw [endOf_fillIn_of_error he]
    exact fun _ _ => rfl

/-- Over a file or a device, putting a binary in changes nothing else. -/
theorem copyIn_changesUnder_of_end (hn : IsFileName n) (hname : Tree.Nameable dir n) (hd : m.Reaches dir d) {node : Node}
    (hnode : m.tree.node? (n :: d) = some node) (hdir : node.isDirectory = false) (hlink : node.isLink = false) (binary : Path) :
    ChangesUnder dir n m (endOf (copyIn binary (dir.join ⟨n⟩) m)) := by
  rcases copyIn_cases hn hname hd hnode hdir hlink binary with ⟨-, e, he⟩ | ⟨origin, f, m', -, hok, -, ha, -, -⟩
  · rw [he]
    exact Or.inl rfl
  · rw [hok]
    refine Or.inr ⟨d, hd, ha, ?_⟩
    rw [hnode]
    intro h
    cases Option.some.inj h
    cases hdir

/-- A link under the name is taken away, and then nothing stands there, if the way to the directory did not go through it. -/
theorem copyIn_changesUnder_of_link (hn : IsFileName n) (hname : Tree.Nameable dir n) (hd : m.Reaches dir d) {target : Path}
    (hnode : m.tree.node? (n :: d) = some (.link target)) (binary : Path) :
    ChangesUnder dir n m (endOf (copyIn binary (dir.join ⟨n⟩) m)) := by
  have hseek : m.seek dir n = .ok (.found (n :: d) (.link target) false) :=
    (Machine.seek_eq_ok hn).2 ⟨hname, d, hd, (Tree.under_of_some hnode).symm⟩
  rw [copyIn_of_removeLink (removeLink_of_link hn hseek)]
  have hgone := Tree.node?_erase_self m.tree (n :: d) (List.cons_ne_nil _ _)
  have ha := Tree.agreeOff_erase m.tree (n :: d)
  generalize m.tree.erase (n :: d) = t at hgone ha
  refine Or.inr ⟨d, hd, ?_, by rw [hnode]; nofun⟩
  by_cases hr : t.Reaches m.cwd dir d
  · exact ha.trans (fillIn_agreeOff (m := { m with tree := t }) hn hname hr hgone binary)
  · have hlost : ∀ a, ({ m with tree := t } : Machine).seek dir n ≠ .ok a := by
      intro a hseek'
      obtain ⟨-, d', hd', -⟩ := (Machine.seek_eq_ok hn).1 hseek'
      cases hd.unique (hd'.of_agree ha.symm (Tree.isEnd_of_none hgone))
      exact hr hd'
    rw [endOf_fillIn_of_lost hn binary hlost]
    exact ha

/-- Putting a binary in, well or not and whatever stands there, changes nothing else. -/
theorem copyIn_changesUnder (hn : IsFileName n) (binary dir : Path) (m : Machine) :
    ChangesUnder dir n m (endOf (copyIn binary (dir.join ⟨n⟩) m)) := by
  cases hseek : m.seek dir n with
  | error e =>
    have hno : ∀ a, m.seek dir n ≠ .ok a := by
      intro a
      rw [hseek]
      nofun
    rw [copyIn_of_removeLink (removeLink_of_no_link hn fun _ _ => hno _), endOf_fillIn_of_lost hn binary hno]
    exact Or.inl rfl
  | ok a =>
    obtain ⟨hname, d, hd, rfl⟩ := (Machine.seek_eq_ok hn).1 hseek
    cases hnode : m.tree.node? (n :: d) with
    | none =>
      rw [Tree.under_of_none hnode] at hseek
      rw [copyIn_of_removeLink (removeLink_of_no_link hn (by rw [hseek]; nofun))]
      exact Or.inr ⟨d, hd, fillIn_agreeOff hn hname hd hnode binary, by rw [hnode]; nofun⟩
    | some node =>
      cases node with
      | file f => exact copyIn_changesUnder_of_end hn hname hd hnode rfl rfl binary
      | device => exact copyIn_changesUnder_of_end hn hname hd hnode rfl rfl binary
      | link target => exact copyIn_changesUnder_of_link hn hname hd hnode binary
      | directory =>
        rw [Tree.under_of_some hnode] at hseek
        have hopen : ∀ mode, ∃ e, FileCall.openCreate m.cwd (dir.join ⟨n⟩) mode m.tree = .error e m.tree :=
          fun mode => ⟨_, FileCall.openCreate_of_directory (Tree.arrive_of_no_link hseek nofun .toCreate)⟩
        obtain ⟨e, he⟩ := copy_of_openCreate_error binary (dir.join ⟨n⟩) hopen
        rw [copyIn_of_removeLink (removeLink_of_no_link hn (by rw [hseek]; nofun)), endOf_fillIn_of_error he]
        exact Or.inl rfl

/-! ## Where links lead -/

/-- A change under a name leaves every directory. -/
theorem ChangesUnder.directory (h : ChangesUnder dir n m m') {q : Place} (hq : m.tree.node? q = some .directory) :
    m'.tree.node? q = some .directory := by
  rcases h with htree | ⟨d, -, ha, hne⟩
  · rw [htree, hq]
  · rw [ha q fun heq => hne (heq ▸ hq), hq]

/-- A change under a name where a link stands leaves what the link leads to, and nothing is made there. -/
theorem ChangesUnder.beyond_link (hn : IsFileName n) (h : ChangesUnder dir n m m') {target : Path}
    (hseek : m.seek dir n = .ok (.found (n :: d) (.link target) false)) {a : Arrival}
    (harr : m.tree.arrive m.cwd (dir.join ⟨n⟩) .through = .ok a) (ha : a.node? ≠ some .directory) :
    m'.tree.node? a.place = a.node? := by
  obtain ⟨-, hd, hlink⟩ := Machine.of_seek hn hseek rfl
  have hnode := (Tree.node?_of_arrive harr ha).1
  rcases h with htree | ⟨d', hd', hagree, -⟩
  · rw [htree, hnode]
  · cases hd.unique hd'
    rw [hagree a.place, hnode]
    -- where the walk ends there is no link, since it would have gone through it
    intro heq
    rw [heq, hlink] at hnode
    exact (Tree.arrive_eq_ok.1 harr).2.node?_ne_link target hnode.symm

end Install

/-! ## Courses of sessions -/

/-- The states come one after the other, from the first one to the last, and each is so related to the one before it. -/
inductive Course {σ : Type} (R : σ → σ → Prop) : σ → List σ → σ → Prop where
  | done (s : σ) : Course R s [] s
  | step {s s₁ s' : σ} {rest : List σ} : R s s₁ → Course R s₁ rest s' → Course R s (s₁ :: rest) s'

namespace Course

variable {σ β : Type} {R : σ → σ → Prop} {s s₁ s' : σ} {l l' : List σ}

theorem append (h : Course R s l s₁) (h' : Course R s₁ l' s') : Course R s (l ++ l') s' := by
  induction h with
  | done s => exact h'
  | step hr _ ih => exact .step hr (ih h')

theorem single (h : R s s') : Course R s [s'] s' :=
  .step h (.done s')

theorem mono {R' : σ → σ → Prop} (h : Course R s l s') (himp : ∀ s s', R s s' → R' s s') : Course R' s l s' := by
  induction h with
  | done s => exact .done s
  | step hr _ ih => exact .step (himp _ _ hr) ih

/-- Any two states that follow each other are so related. -/
theorem related {before after : List σ} {s₂ s₃ : σ} (h : Course R s l s') (hl : s :: l = before ++ s₂ :: s₃ :: after) : R s₂ s₃ := by
  induction h generalizing before with
  | done s =>
    have hlen := congrArg List.length hl
    simp only [List.length_append, List.length_cons, List.length_nil] at hlen
    omega
  | @step s s₁ s' rest hr _ ih =>
    cases before with
    | nil =>
      cases hl
      exact hr
    | cons b before =>
      rw [List.cons_append] at hl
      exact ih (List.cons.inj hl).2

/-- What is not in the end as it was at the start has changed from one of the states to the next. -/
theorem exists_change (h : Course R s l s') (f : σ → β) (hne : f s' ≠ f s) :
    ∃ before s₁ s₂ after, s :: l = before ++ s₁ :: s₂ :: after ∧ f s₂ ≠ f s₁ := by
  induction h with
  | done s => exact absurd rfl hne
  | @step s s₁ s' rest hr _ ih =>
    by_cases hfirst : f s₁ = f s
    · obtain ⟨before, s₂, s₃, after, hall, hne'⟩ := ih (by rwa [hfirst])
      exact ⟨s :: before, s₂, s₃, after, by rw [hall]; rfl, hne'⟩
    · exact ⟨[], s, s₁, rest, rfl, hfirst⟩

/-- What is so from each state to the next, and can be put together, is so from the first state to the last. -/
theorem chained {P : σ → σ → Prop} (hrefl : ∀ s, P s s) (htrans : ∀ s s₁ s₂, P s s₁ → P s₁ s₂ → P s s₂) (h : Course R s l s')
    (hstep : ∀ before s₁ s₂ after, s :: l = before ++ s₁ :: s₂ :: after → R s₁ s₂ → P s₁ s₂) : P s s' := by
  induction h with
  | done s => exact hrefl s
  | @step s s₁ s' rest hr _ ih =>
    refine htrans s s₁ s' (hstep [] s s₁ rest rfl hr) (ih fun before s₂ s₃ after hall => ?_)
    exact hstep (s :: before) s₂ s₃ after (congrArg (s :: ·) hall)

/-- The states in which work over a list can be looked at, given those in which the work on an item can be, as far as the work gets. -/
def eachMoments {ε γ δ : Type} (momentsOf : γ → σ → List σ) (g : γ → EStateM ε σ δ) : List γ → σ → List σ
  | [], _ => []
  | c :: rest, s =>
    momentsOf c s ++
      match g c s with
      | .error _ _ => []
      | .ok _ s' => eachMoments momentsOf g rest s'

/-- Work over a list goes through its moments, if the work on each item does. The induction is on the list. -/
theorem each {ε γ δ : Type} {momentsOf : γ → σ → List σ} {g : γ → EStateM ε σ δ} {cs : List γ}
    (h : ∀ c ∈ cs, ∀ s, Course R s (momentsOf c s) (endOf (g c s))) (s : σ) :
    Course R s (eachMoments momentsOf g cs s) (endOf (cs.mapM g s)) := by
  induction cs generalizing s with
  | nil =>
    rw [List.mapM_nil, eachMoments]
    exact .done s
  | cons c cs ih =>
    have hfirst := h c List.mem_cons_self s
    have hrest := ih fun c' hc' => h c' (List.mem_cons_of_mem _ hc')
    rw [List.mapM_cons, eachMoments]
    cases hc : g c s with
    | error e s₁ =>
      rw [hc] at hfirst
      rw [bind_of_error hc, List.append_nil]
      exact hfirst
    | ok d s₁ =>
      rw [hc] at hfirst
      have hrow := hrest s₁
      rw [bind_of_ok hc]
      refine hfirst.append ?_
      cases h' : cs.mapM g s₁ with
      | error e s₂ =>
        rw [h'] at hrow
        rw [bind_of_error h']
        exact hrow
      | ok ds s₂ =>
        rw [h'] at hrow
        rw [bind_of_ok h']
        exact hrow

end Course

namespace Staging

variable {tools : Toolchain} {profile : Profile} {sourceDir installDir : Path} {names : List String} {p : Program}
variable {s s₁ s₂ s' : Session} {q : Place}

/-! ## What can happen between two moments -/

/-- A tool has been called: the compiler for a program, or the stripper for all install paths. -/
inductive Called (tools : Toolchain) (profile : Profile) (installDir : Path) (names : List String) (s s' : Session) : Prop where
  | compile (n : String) : n ∈ names → s'.machine = endOf (tools.compile n profile s.machine) →
      Called tools profile installDir names s s'
  | strip : s'.machine = endOf (tools.strip (names.map fun n => installDir.join ⟨n⟩) s.machine) →
      Called tools profile installDir names s s'

/-- What can become of the tree from one moment of a staging to the next: nothing; a tool is called, and the tree is what the tool makes
of it; directories are made on the way to the install directory; or what stands under a program's name changes. -/
inductive Step (tools : Toolchain) (profile : Profile) (installDir : Path) (names : List String) (s s' : Session) : Prop where
  | told : s'.machine.tree = s.machine.tree → Step tools profile installDir names s s'
  | called : Called tools profile installDir names s s' → Step tools profile installDir names s s'
  | way : installDir.text ≠ "" → s.machine.tree.isDirectory s.machine.cwd installDir = false →
      s.machine.tree.GrowsAlong s'.machine.tree s.machine.cwd installDir → Step tools profile installDir names s s'
  | entry (n : String) : n ∈ names → Install.ChangesUnder installDir n s.machine s'.machine →
      Step tools profile installDir names s s'

/-- How it can come that something else stands at a place at one moment of a staging than at the moment before: a tool was called; the
install directory was missing, and a directory was made where nothing was, on the way to it; or the place is the entry of a program. -/
inductive Accounted (tools : Toolchain) (profile : Profile) (installDir : Path) (names : List String) (q : Place) (s s' : Session) :
    Prop where
  | called : Called tools profile installDir names s s' → Accounted tools profile installDir names q s s'
  | way (p : Path) : s.machine.tree.isDirectory s.machine.cwd installDir = false → s.machine.tree.node? q = none →
      s'.machine.tree.node? q = some .directory → p.OnWay installDir →
      s'.machine.tree.entry s.machine.cwd p .through = .ok (q, .directory) → Accounted tools profile installDir names q s s'
  | entry (n : String) (d : Place) : n ∈ names → s.machine.Reaches installDir d → q = n :: d →
      s.machine.tree.node? q ≠ some .directory → Accounted tools profile installDir names q s s'

/-- A change from one moment to the next is accounted for. -/
theorem Step.accounted (h : Step tools profile installDir names s s') (hne : s'.machine.tree.node? q ≠ s.machine.tree.node? q) :
    Accounted tools profile installDir names q s s' := by
  cases h with
  | told htree => exact absurd (by rw [htree]) hne
  | called h => exact .called h
  | way _ hmissing h =>
    rcases h q with hsame | ⟨hnone, hdir, p, hp, he⟩
    · exact absurd hsame hne
    · exact .way p hmissing hnone hdir hp he
  | entry n hn h =>
    rcases h with htree | ⟨d, hd, ha, hdir⟩
    · exact absurd (by rw [htree]) hne
    · have hq : q = n :: d := Decidable.byContradiction fun hq => hne (ha q hq)
      exact .entry n d hn hd hq (hq ▸ hdir)

/-- From one moment to the next, what a link at an install path leads to stays as it is, and nothing is made there, unless a tool is called
or it is itself what stands at the install path of another program. -/
theorem Step.beyond_link {n : String} {d : Place} {target : Path} {a : Arrival} (h : Step tools profile installDir names s s')
    (hn : IsFileName n) (hseek : s.machine.seek installDir n = .ok (.found (n :: d) (.link target) false))
    (harr : s.machine.tree.arrive s.machine.cwd (installDir.join ⟨n⟩) .through = .ok a) (ha : a.node? ≠ some .directory) :
    s'.machine.tree.node? a.place = a.node? ∨ Called tools profile installDir names s s' ∨
      ∃ n', n' ∈ names ∧ n' ≠ n ∧ a.place = n' :: d := by
  obtain ⟨hname, hd, -⟩ := Machine.of_seek hn hseek rfl
  have hnode := (Tree.node?_of_arrive harr ha).1
  cases h with
  | told htree => exact Or.inl (by rw [htree, hnode])
  | called h => exact Or.inr (Or.inl h)
  | way hdir hmissing _ =>
    -- the link stands in the install directory, so that this is there
    rw [Tree.isDirectory_of_reaches (hname.accepted hn hdir) hd] at hmissing
    cases hmissing
  | entry n' hn' h =>
    by_cases hsame : n' = n
    · subst hsame
      exact Or.inl (h.beyond_link hn hseek harr ha)
    · rcases h with htree | ⟨d', hd', hagree, -⟩
      · exact Or.inl (by rw [htree, hnode])
      · cases hd.unique hd'
        by_cases hplace : a.place = n' :: d
        · exact Or.inr (Or.inr ⟨n', hn', hsame, hplace⟩)
        · exact Or.inl ((hagree a.place hplace).trans hnode)

/-! ## The parts -/

theorem step_ready (tools : Toolchain) (profile : Profile) (installDir : Path) (names : List String) (s : Session) :
    Step tools profile installDir names s (endOf (ready installDir s)) := by
  rw [ready, endOf_during, Act.endOf_toRun, Act.endOf_files]
  by_cases hempty : installDir.text = ""
  · exact .told (by rw [FileCall.makeDirectories_of_empty hempty, endOf_ok])
  by_cases hdir : s.machine.tree.isDirectory s.machine.cwd installDir = true
  · exact .told (by rw [FileCall.makeDirectories_of_directory hdir, endOf_ok])
  · exact .way hempty (Bool.eq_false_iff.2 hdir) (FileCall.growsAlong_makeDirectories s.machine.cwd installDir s.machine.tree)

theorem step_hold (tools : Toolchain) (profile : Profile) (installDir : Path) (hn : IsFileName p.name) (hp : p.name ∈ names) (s : Session) :
    Step tools profile installDir names s (endOf (hold profile installDir p s)) := by
  have hchange := Install.placeholder_changesUnder hn installDir s.machine
  refine .entry p.name hp ?_
  cases h : Install.placeholder (installDir.join ⟨p.name⟩) s.machine with
  | error e m =>
    rw [h] at hchange
    rw [hold_of_error profile h]
    exact hchange
  | ok _ m =>
    rw [h] at hchange
    obtain ⟨s₁, hhold, htree, -⟩ := hold_of_ok profile h
    rw [hhold]
    unfold Install.ChangesUnder
    rw [endOf_ok, htree]
    exact hchange

theorem step_compile (tools : Toolchain) (profile : Profile) (installDir : Path) (hp : p.name ∈ names) (s : Session) :
    Step tools profile installDir names s (endOf (Staging.compile tools profile p s)) := by
  refine .called (.compile p.name hp ?_)
  rw [endOf_compile]

theorem step_putIn (hn : IsFileName p.name) (hp : p.name ∈ names) (binary : Path) (s : Session) :
    Step tools profile installDir names s (endOf (putIn installDir p binary s)) := by
  have hchange := Install.copyIn_changesUnder hn binary installDir s.machine
  refine .entry p.name hp ?_
  cases h : Install.copyIn binary (installDir.join ⟨p.name⟩) s.machine with
  | error e m =>
    have hput : putIn installDir p binary s = .error e { s with machine := m } := bind_of_error (Act.toRun_of_error h)
    rw [h] at hchange
    rw [hput]
    exact hchange
  | ok _ m =>
    have hput : putIn installDir p binary s = .ok ⟨p.name, installDir.join ⟨p.name⟩⟩ { s with machine := m } :=
      bind_of_ok (Act.toRun_of_ok h)
    rw [h] at hchange
    rw [hput]
    exact hchange

/-! ## The moments of a run -/

/-- The sessions in which the staging of a program can be looked at: after its path has been taken hold of, after it has been compiled, and
after its binary has been put in, as far as it gets. -/
def programMoments (tools : Toolchain) (profile : Profile) (installDir : Path) (p : Program) (s : Session) : List Session :=
  match hold profile installDir p s with
  | .error _ s₁ => [s₁]
  | .ok _ s₁ =>
    match Staging.compile tools profile p s₁ with
    | .error _ s₂ => [s₁, s₂]
    | .ok binary s₂ => [s₁, s₂, endOf (putIn installDir p binary s₂)]

/-- The sessions in which the stripping can be looked at: where there is any, before the tool is called, and in the end. -/
def stripMoments (tools : Toolchain) (installed : List Installed) (s : Session) : List Session :=
  if tools.matchesHost then
    [endOf ((Act.print s!"[stage] stripping {(installed.map Installed.path).length} binaries").toRun s), endOf (strip tools installed s)]
  else [endOf (strip tools installed s)]

/-- The sessions in which a staging can be looked at, the one that it ends in among them. -/
def moments (tools : Toolchain) (profile : Profile) (sourceDir installDir : Path) (s : Session) : List Session :=
  match Program.discover sourceDir s.machine with
  | .error _ _ => [endOf (rebuild tools profile sourceDir installDir s)]
  | .ok programs _ =>
    if programs = [] then [endOf (rebuild tools profile sourceDir installDir s)]
    else
      match ready installDir s with
      | .error _ s₁ => [s₁]
      | .ok _ s₁ =>
        s₁ :: (Course.eachMoments (programMoments tools profile installDir) (stageProgram tools profile installDir) programs s₁ ++
          match programs.mapM (stageProgram tools profile installDir) s₁ with
          | .error _ _ => []
          | .ok installed s₂ => stripMoments tools installed s₂ ++ [endOf (rebuild tools profile sourceDir installDir s)])

theorem course_program (tools : Toolchain) (profile : Profile) (installDir : Path) (hn : IsFileName p.name) (hp : p.name ∈ names)
    (s : Session) :
    Course (Step tools profile installDir names) s (programMoments tools profile installDir p s)
      (endOf (stageProgram tools profile installDir p s)) := by
  have hhold := step_hold tools profile installDir hn hp s
  rw [stageProgram_eq]
  unfold programMoments
  cases h₁ : hold profile installDir p s with
  | error e s₁ =>
    rw [h₁] at hhold
    rw [bind_of_error h₁]
    exact .single hhold
  | ok _ s₁ =>
    rw [h₁] at hhold
    rw [bind_of_ok h₁]
    dsimp only
    have hcomp := step_compile tools profile installDir hp s₁
    cases h₂ : Staging.compile tools profile p s₁ with
    | error e s₂ =>
      rw [h₂] at hcomp
      rw [bind_of_error h₂]
      exact .step hhold (.single hcomp)
    | ok binary s₂ =>
      rw [h₂] at hcomp
      rw [bind_of_ok h₂]
      exact .step hhold (.step hcomp (.single (step_putIn hn hp binary s₂)))

theorem course_strip {installed : List Installed} (hpaths : installed.map Installed.path = names.map fun n => installDir.join ⟨n⟩)
    (s : Session) :
    Course (Step tools profile installDir names) s (stripMoments tools installed s) (endOf (strip tools installed s)) := by
  unfold stripMoments
  split
  · next hhost =>
    obtain ⟨s₁, hprint, ha⟩ := Act.print_toRun s!"[stage] stripping {(installed.map Installed.path).length} binaries" s
    have hcalled : (endOf (strip tools installed s)).machine = endOf (tools.strip (names.map fun n => installDir.join ⟨n⟩) s₁.machine) := by
      rw [endOf_strip_of_host hhost hprint, Run.endOf_call, hpaths]
    rw [hprint]
    exact .step (.told ha.1) (.single (.called (.strip hcalled)))
  · next hhost =>
    obtain ⟨s₁, hwarn, ha⟩ := Act.warn_toRun "[stage] host architecture differs from target; leaving binaries unstripped" s
    have hstrip : strip tools installed s = .ok false s₁ := (congrFun (if_neg hhost) s).trans (bind_of_ok hwarn)
    rw [hstrip]
    exact .single (.told ha.1)

/-! ## The whole -/

/-- The names of the programs that are found under a directory; none where the search fails. -/
def foundNames (sourceDir : Path) (m : Machine) : List String :=
  ((valueOf (Program.discover sourceDir m)).getD []).map Program.name

theorem foundNames_of_discover {programs : List Program} {m m' : Machine} (h : Program.discover sourceDir m = .ok programs m') :
    foundNames sourceDir m = programs.map Program.name := by
  rw [foundNames, h]
  rfl

/-- Different names stand at different paths in a directory. -/
theorem join_injective {n n' : String} (hn : IsFileName n) (hn' : IsFileName n') (h : installDir.join ⟨n⟩ = installDir.join ⟨n'⟩) :
    n = n' := by
  have hlist := congrArg (fun q : Path => q.text.toList) h
  simp only [Path.toList_join hn, Path.toList_join hn', List.append_cancel_left_eq] at hlist
  split at hlist
  · exact String.toList_injective hlist
  · exact String.toList_injective (List.cons.inj hlist).2

/-- A staging goes through its moments, one step after the other. -/
theorem course_rebuild (tools : Toolchain) (profile : Profile) (sourceDir installDir : Path) (hw : s.machine.tree.WellNamed) :
    Course (Step tools profile installDir (foundNames sourceDir s.machine)) s (moments tools profile sourceDir installDir s)
      (endOf (rebuild tools profile sourceDir installDir s)) := by
  unfold moments
  cases hdisc : Program.discover sourceDir s.machine with
  | error e m =>
    rw [rebuild_of_unread tools profile installDir hdisc]
    exact .single (.told rfl)
  | ok programs m =>
    cases Program.machine_of_discover hdisc
    obtain ⟨hn, -⟩ := Program.discover_ok hw hdisc
    have hnames := foundNames_of_discover hdisc
    by_cases hnil : programs = []
    · subst hnil
      obtain ⟨s₁, -, hrebuild, ha⟩ := rebuild_of_none tools profile installDir hdisc
      rw [hrebuild]
      exact .single (.told ha.1)
    · dsimp only
      rw [if_neg hnil, rebuild_of_found tools profile installDir hdisc hnil]
      have hready := step_ready tools profile installDir (foundNames sourceDir s.machine) s
      unfold stageAll
      cases hr : ready installDir s with
      | error e s₁ =>
        rw [hr] at hready
        rw [bind_of_error hr]
        exact .single hready
      | ok _ s₁ =>
        rw [hr] at hready
        have hmem : ∀ p ∈ programs, p.name ∈ foundNames sourceDir s.machine := by
          rw [hnames]
          exact fun p hp => List.mem_map_of_mem hp
        have hrow := Course.each (fun p hp => course_program tools profile installDir (hn p hp) (hmem p hp)) s₁
        rw [bind_of_ok hr]
        refine .step hready ?_
        cases hmap : programs.mapM (stageProgram tools profile installDir) s₁ with
        | error e s₂ =>
          rw [hmap] at hrow
          rw [bind_of_error hmap, List.append_nil]
          exact hrow
        | ok installed s₂ =>
          rw [hmap] at hrow
          have hpaths : installed.map Installed.path = (foundNames sourceDir s.machine).map fun n => installDir.join ⟨n⟩ := by
            rw [installed_of_mapM hmap, hnames, List.map_map, List.map_map]
            rfl
          rw [bind_of_ok hmap]
          refine hrow.append ((course_strip hpaths s₂).append (.single (.told ?_)))
          cases hstrip : strip tools installed s₂ with
          | error e s₃ =>
            rw [bind_of_error hstrip]
            rfl
          | ok stripped s₃ =>
            obtain ⟨s₄, hprint, ha⟩ := Act.print_toRun s!"[stage] installed {installed.length} binaries into {installDir.text}" s₃
            rw [bind_of_ok hstrip]
            change (endOf (((Act.print s!"[stage] installed {installed.length} binaries into {installDir.text}").toRun >>= _)
              s₃)).machine.tree = s₃.machine.tree
            rw [bind_of_ok hprint]
            exact ha.1

/-- What a staging leaves alone, well or not. Every difference that it makes to the tree has come about between two of its moments, and is
accounted for there; and from one moment to the next, what a link at an install path leads to stays as it is, and nothing is made where
it leads to nothing, unless a tool is called or it is itself what stands at another program's install path. -/
structure Confined (tools : Toolchain) (profile : Profile) (sourceDir installDir : Path) (s : Session) : Prop where
  names : ∀ n ∈ foundNames sourceDir s.machine, IsFileName n
  distinct : ((foundNames sourceDir s.machine).map fun n => installDir.join ⟨n⟩).Nodup
  course : Course (Step tools profile installDir (foundNames sourceDir s.machine)) s (moments tools profile sourceDir installDir s)
    (endOf (rebuild tools profile sourceDir installDir s))
  ready : ∀ s₁, Staging.ready installDir s = .ok () s₁ → installDir.text ≠ "" →
    s₁.machine.tree.isDirectory s₁.machine.cwd installDir = true
  changes : ∀ q, (endOf (rebuild tools profile sourceDir installDir s)).machine.tree.node? q ≠ s.machine.tree.node? q →
    ∃ before s₁ s₂ after, s :: moments tools profile sourceDir installDir s = before ++ s₁ :: s₂ :: after ∧
      s₂.machine.tree.node? q ≠ s₁.machine.tree.node? q ∧
      Accounted tools profile installDir (foundNames sourceDir s.machine) q s₁ s₂
  links : ∀ before s₁ s₂ after, s :: moments tools profile sourceDir installDir s = before ++ s₁ :: s₂ :: after →
    ∀ n ∈ foundNames sourceDir s.machine, ∀ d target a,
      s₁.machine.seek installDir n = .ok (.found (n :: d) (.link target) false) →
      s₁.machine.tree.arrive s₁.machine.cwd (installDir.join ⟨n⟩) .through = .ok a → a.node? ≠ some .directory →
      s₂.machine.tree.node? a.place = a.node? ∨ Called tools profile installDir (foundNames sourceDir s.machine) s₁ s₂ ∨
        ∃ n', n' ∈ foundNames sourceDir s.machine ∧ n' ≠ n ∧ a.place = n' :: d

/-- The names that are found are names of entries, and no two of them are the same. -/
theorem foundNames_ok (hw : s.machine.tree.WellNamed) (sourceDir : Path) :
    (∀ n ∈ foundNames sourceDir s.machine, IsFileName n) ∧ (foundNames sourceDir s.machine).Nodup := by
  cases hdisc : Program.discover sourceDir s.machine with
  | error e m =>
    rw [foundNames, hdisc]
    exact ⟨nofun, .nil⟩
  | ok programs m =>
    obtain ⟨hn, hsorted⟩ := Program.discover_ok hw hdisc
    rw [foundNames_of_discover hdisc]
    refine ⟨fun n hmem => ?_, List.pairwise_map.2 (hsorted.imp fun h => String.ne_of_lt h)⟩
    obtain ⟨p, hp, rfl⟩ := List.mem_map.1 hmem
    exact hn p hp

/-- After the install directory has been made, it is there. -/
theorem isDirectory_of_ready (h : ready installDir s = .ok () s₁) (hdir : installDir.text ≠ "") :
    s₁.machine.tree.isDirectory s₁.machine.cwd installDir = true := by
  obtain ⟨m, hm, rfl⟩ := Act.toRun_eq_ok.1 (during_eq_ok.1 h)
  cases hmake : FileCall.makeDirectories s.machine.cwd installDir s.machine.tree with
  | error e t =>
    rw [Act.files_of_error (fun cwd => FileCall.makeDirectories cwd installDir) hmake] at hm
    cases hm
  | ok v t =>
    rw [Act.files_of_ok (fun cwd => FileCall.makeDirectories cwd installDir) hmake] at hm
    cases hm
    exact FileCall.isDirectory_of_makeDirectories hdir hmake

/-- A staging is confined to its own install paths, whatever stands there and whatever the tools do. -/
theorem rebuild_confined (tools : Toolchain) (profile : Profile) (sourceDir installDir : Path) (s : Session)
    (hw : s.machine.tree.WellNamed) : Confined tools profile sourceDir installDir s := by
  obtain ⟨hnames, hdistinct⟩ := foundNames_ok hw sourceDir
  have hcourse := course_rebuild tools profile sourceDir installDir hw
  refine ⟨hnames, ?_, hcourse, fun _ => isDirectory_of_ready, ?_, ?_⟩
  · refine List.pairwise_map.2 (List.Pairwise.imp_of_mem (fun {n n'} hn hn' hne heq => ?_) hdistinct)
    exact hne (join_injective (hnames n hn) (hnames n' hn') heq)
  · intro q hne
    obtain ⟨before, s₁, s₂, after, hall, hchange⟩ := hcourse.exists_change (fun s => s.machine.tree.node? q) hne
    exact ⟨before, s₁, s₂, after, hall, hchange, (hcourse.related hall).accounted hchange⟩
  · intro before s₁ s₂ after hall n hn d target a hseek harr ha
    exact (hcourse.related hall).beyond_link (hnames n hn) hseek harr ha

/-- A session on a machine where there are two programs to stage and something built; at the install path of the second program is a link to
that of the first. -/
def sampleLinked (first : Option Node) : Session where
  machine :=
    { tree := ⟨[(["src"], .directory), (["a.rs", "src"], .file (.new newFileMode)), (["b.rs", "src"], .file (.new newFileMode)),
        (["inst"], .directory), (["b", "inst"], .link ⟨"a"⟩), (["built"], .file ⟨.ofList [1, 2], newFileMode, 0⟩)] ++
        first.toList.map fun node => (["a", "inst"], node)⟩,
      cwd := [], searchPath := "", home := ⟨""⟩, clock := 0 }

/-- A file that can be at the install path of the first program. -/
def linkedFile : Node :=
  .file ⟨.ofList [9], newFileMode, 0⟩

theorem rebuild_confined_sampleLinked :
    (sampleLinked none).machine.tree.WellNamed ∧ Confined (.idle ⟨"built"⟩) .release ⟨"src"⟩ ⟨"inst"⟩ (sampleLinked none) :=
  ⟨by decide, rebuild_confined (.idle ⟨"built"⟩) .release ⟨"src"⟩ ⟨"inst"⟩ (sampleLinked none) (by decide)⟩

/-- Where a link at an install path leads to the install path of another program, what it leads to does not stay: the file there gets other
bytes, and where there is none, one is made, though the tools do nothing. -/
theorem rebuild_over_linked :
    (∀ n m, endOf ((Toolchain.idle ⟨"built"⟩).compile n .release m) = m) ∧
      (∀ paths m, endOf ((Toolchain.idle ⟨"built"⟩).strip paths m) = m) ∧
      ((sampleLinked (some linkedFile)).machine.tree.arrive [] ⟨"inst/b"⟩ .through).toOption =
        some (.found ["a", "inst"] linkedFile false) ∧
      (endOf (rebuild (.idle ⟨"built"⟩) .release ⟨"src"⟩ ⟨"inst"⟩ (sampleLinked (some linkedFile)))).machine.tree.node? ["a", "inst"] =
          some (.file ⟨.ofList [1, 2], Nat.lor newFileMode Install.executeBits, 0⟩) ∧
      ((sampleLinked none).machine.tree.arrive [] ⟨"inst/b"⟩ .through).toOption = some (.vacant ["inst"] "a" false) ∧
      (endOf (rebuild (.idle ⟨"built"⟩) .release ⟨"src"⟩ ⟨"inst"⟩ (sampleLinked none))).machine.tree.node? ["a", "inst"] ≠ none := by
  have hfound (first : Option Node) (hfirst : first = none ∨ first = some linkedFile) :
      Program.discover ⟨"src"⟩ (sampleLinked first).machine = .ok [⟨"a", ⟨"src/a.rs"⟩⟩, ⟨"b", ⟨"src/b.rs"⟩⟩] (sampleLinked first).machine := by
    refine Program.discover_of_listed ["a.rs", "b.rs"] ?_
    rcases hfirst with rfl | rfl <;> decide +kernel
  refine ⟨fun _ _ => rfl, fun _ _ => rfl, by decide +kernel, ?_, by decide +kernel, ?_⟩
  · rw [rebuild_of_found _ _ _ (hfound _ (Or.inr rfl)) (List.cons_ne_nil _ _)]
    decide +kernel
  · rw [rebuild_of_found _ _ _ (hfound _ (Or.inl rfl)) (List.cons_ne_nil _ _)]
    decide +kernel

end Staging

end BootDisk
