import BootDisk.Proofs.Staging.Rebuild

/-!
# What a staging that fails leaves behind

Where the staging of one program fails, the programs before it are installed, those after it are as they were, and its own install path
has been taken hold of, if it could be (`FailedFast`). What is there and what was there is said by places: the place of an install path is
where it leads when the install directory has been made, with no link gone through at its end. A path by itself would not do, since it can
lead through a link that is taken away from the very place it leads to.
-/

namespace BootDisk

namespace Staging

variable {tools : Toolchain} {profile : Profile} {sourceDir installDir : Path} {programs todo rest : List Program} {p : Program}
variable {built done : List (Program × File)} {s s₁ s₂ s' : Session} {d place : Place} {e : Failure}

/-! ## Places that no program is installed at -/

/-- The compiler leaves what stands at a place alone. -/
def KeepsPlace (tools : Toolchain) (profile : Profile) (place : Place) (p : Program) (m : Machine) : Prop :=
  (endOf (tools.compile p.name profile m)).tree.node? place = m.tree.node? place

/-- Staging a program, well or not, leaves a place alone that the compiler leaves alone and that is not under the program's name. -/
theorem elsewhere_of_stageProgram (hfit : Fit tools profile installDir programs p s)
    (hkeep : ∀ s₁, hold profile installDir p s = .ok () s₁ → KeepsPlace tools profile place p s₁.machine)
    (hne : ∀ d, Tree.Nameable installDir p.name → s.machine.Reaches installDir d → place ≠ p.name :: d) :
    (endOf (stageProgram tools profile installDir p s)).machine.tree.node? place = s.machine.tree.node? place := by
  have hn := hfit.names p hfit.mem
  rw [stageProgram_eq]
  cases hhold : hold profile installDir p s with
  | error e s₁ =>
    rw [bind_of_error hhold, endOf_error]
    obtain ⟨-, hm | ⟨d, target, hname, hd, -, hm⟩⟩ := hold_error hn hhold
    · rw [hm]
    · rw [hm]
      exact Tree.node?_erase_of_ne _ (hne d hname hd)
  | ok _ s₁ =>
    obtain ⟨-, hname, d, hd, -, ha₁, -, hnode₁⟩ := hold_ok hn hhold
    have hkept : (endOf (compile tools profile p s₁)).machine.tree.node? place = s.machine.tree.node? place := by
      rw [endOf_compile]
      exact (hkeep s₁ hhold).trans (ha₁ place (hne d hname hd))
    rw [bind_of_ok hhold]
    cases hcomp : compile tools profile p s₁ with
    | error e s₂ =>
      rw [hcomp] at hkept
      rw [bind_of_error hcomp]
      exact hkept
    | ok binary s₂ =>
      obtain ⟨-, d', hd', hsame₂⟩ := hfit.compile hhold hcomp
      cases hd.unique hd'
      rw [hcomp, endOf_ok] at hkept
      rw [endOf_ok] at hsame₂
      rw [bind_of_ok hcomp]
      have hnode₂ := (hsame₂.2 p.name ⟨p, hfit.mem, rfl⟩ hname).trans hnode₁
      rcases putIn_cases hn hname hsame₂.1 hnode₂ (heldNode_isDirectory _) (heldNode_isLink _) binary with
        ⟨-, e, he⟩ | ⟨origin, f, s'', -, hok, -, -, ha₃, -⟩
      · rw [he]
        exact hkept
      · rw [hok]
        exact (ha₃ place (hne d hname hd)).trans hkept

/-- A place under none of the programs' names. -/
def Outside (installDir : Path) (programs : List Program) (place : Place) (m : Machine) : Prop :=
  ∀ q ∈ programs, Tree.Nameable installDir q.name → ∀ d, m.Reaches installDir d → place ≠ q.name :: d

/-- A row of staged programs leaves such a place alone. -/
theorem Staged.elsewhere (h : Staged tools profile installDir s done s') (hn : ∀ q ∈ programs, IsFileName q.name)
    (hsub : ∀ q ∈ todo, q ∈ programs) (hclean : AllClean tools profile installDir programs s todo)
    (hkeep : AtCompile tools profile installDir s todo (KeepsPlace tools profile place))
    (htodo : todo = done.map Prod.fst ++ rest) (hout : Outside installDir programs place s.machine) :
    s'.machine.tree.node? place = s.machine.tree.node? place ∧ Outside installDir programs place s'.machine := by
  induction h generalizing todo with
  | nil s => exact ⟨rfl, hout⟩
  | @cons s s₁ s' p f i done hp hf hdone ih =>
    subst htodo
    have hfit := hclean.fit hn (.nil s) (List.nil_append _).symm (hsub p List.mem_cons_self)
    have hfirst := elsewhere_of_stageProgram hfit (fun s₂ hhold => hkeep [] p _ s s₂ rfl (.nil s) hhold)
      fun d hname hd => hout p hfit.mem hname d hd
    obtain ⟨-, -, -, d, -, hd, -, hsame, -⟩ := stageProgram_ok hfit hp
    rw [hp, endOf_ok] at hfirst
    have hout₁ : Outside installDir programs place s₁.machine := by
      intro q hq hname d' hd'
      -- the directory is where it was
      cases hsame.1.unique hd'
      exact hout q hq hname d hd
    obtain ⟨hrest, hout'⟩ := ih (fun q hq => hsub q (List.mem_cons_of_mem _ hq)) (AtCompile.tail hclean hp hf)
      (AtCompile.tail hkeep hp hf) rfl hout₁
    exact ⟨hrest.trans hfirst, hout'⟩

/-! ## The program that fails -/

/-- Where the staging of a program fails, its compilation has been asked for if its install path could be taken hold of, and only then. -/
theorem calls_of_stageProgram_error (hfit : Fit tools profile installDir programs p s)
    (h : stageProgram tools profile installDir p s = .error e s') :
    (hold profile installDir p s = .error e s' ∧ s'.calls = s.calls) ∨
      ((∃ s₁, hold profile installDir p s = .ok () s₁) ∧ s'.calls = s.calls ++ [.compile p.name profile]) := by
  rcases stageProgram_error hfit h with hhold | ⟨s₁, hhold, hcalls, -⟩
  · exact Or.inl ⟨hhold, (hold_error (hfit.names p hfit.mem) hhold).1⟩
  · exact Or.inr ⟨⟨s₁, hhold⟩, hcalls⟩

/-- Where the staging of a program fails, nothing changes under the names of the others. -/
theorem others_of_stageProgram_error (hfit : Fit tools profile installDir programs p s)
    (h : stageProgram tools profile installDir p s = .error e s') (hd : s.machine.Reaches installDir d) {n : String}
    (hn : Named programs n) (hne : n ≠ p.name) (hname : Tree.Nameable installDir n) :
    s'.machine.tree.node? (n :: d) = s.machine.tree.node? (n :: d) := by
  have hp := hfit.names p hfit.mem
  rcases stageProgram_error hfit h with hhold | ⟨s₁, hhold, -, d', hd', hsame⟩
  · obtain ⟨-, hm | ⟨d', target, -, hd', -, hm⟩⟩ := hold_error hp hhold
    · rw [hm]
    · cases hd.unique hd'
      rw [hm]
      exact Tree.node?_erase_of_ne _ fun heq => hne (List.cons.inj heq).1
  · cases hd.unique hd'
    obtain ⟨-, -, d', hd', -, ha, -, -⟩ := hold_ok hp hhold
    cases hd.unique hd'
    exact (hsame.2 n hn hname).trans (ha _ fun heq => hne (List.cons.inj heq).1)

/-- Where its install path could be taken hold of, that is what is left of a program whose staging fails. -/
theorem held_of_stageProgram_error (hfit : Fit tools profile installDir programs p s)
    (h : stageProgram tools profile installDir p s = .error e s') (hd : s.machine.Reaches installDir d)
    (hhold : hold profile installDir p s = .ok () s₁) :
    s.machine.tree.node? (p.name :: d) ≠ some .directory ∧
      s'.machine.tree.node? (p.name :: d) = some (Install.heldNode (s.machine.tree.node? (p.name :: d))) := by
  rcases stageProgram_error hfit h with hhold' | ⟨s₁', hhold', -, d', hd', hsame⟩
  · rw [hhold] at hhold'
    cases hhold'
  · cases hhold.symm.trans hhold'
    cases hd.unique hd'
    obtain ⟨-, hname, d', hd', -, -, hdir, hnode⟩ := hold_ok (hfit.names p hfit.mem) hhold
    cases hd.unique hd'
    exact ⟨hdir, (hsame.2 p.name ⟨p, hfit.mem, rfl⟩ hname).trans hnode⟩

/-- Where its install path could not be taken hold of, nothing has changed, or a link is gone that stood there. -/
theorem notHeld_of_hold_error (hp : IsFileName p.name) (hhold : hold profile installDir p s = .error e s')
    (hd : s.machine.Reaches installDir d) :
    s'.machine = s.machine ∨ ∃ target, s.machine.tree.node? (p.name :: d) = some (.link target) ∧
      s'.machine.tree.node? (p.name :: d) = none := by
  obtain ⟨-, hm | ⟨d', target, -, hd', hnode, hm⟩⟩ := hold_error hp hhold
  · exact Or.inl hm
  · cases hd.unique hd'
    refine Or.inr ⟨target, hnode, ?_⟩
    rw [hm]
    exact Tree.node?_erase_self _ _ (List.cons_ne_nil _ _)

/-! ## The whole -/

/-- A row of staged programs asks for their compilations, in order, and for nothing else. -/
theorem Staged.calls (h : Staged tools profile installDir s done s') (hn : ∀ q ∈ programs, IsFileName q.name)
    (hsub : ∀ q ∈ todo, q ∈ programs) (hclean : AllClean tools profile installDir programs s todo)
    (htodo : todo = done.map Prod.fst ++ rest) (hdistinct : todo.Pairwise fun a b => a.name ≠ b.name) :
    s'.calls = s.calls ++ compilations profile (done.map Prod.fst) := by
  by_cases hnil : done = []
  · subst hnil
    cases h
    exact (List.append_nil _).symm
  · have hmem : ∀ q ∈ done.map Prod.fst, IsFileName q.name := by
      intro q hq
      exact hn q (hsub q (by rw [htodo]; exact List.mem_append_left _ hq))
    obtain ⟨d, hd⟩ := h.reaches hmem hnil
    exact (h.effect hn hsub hclean htodo hdistinct hd).1

/-- What is left behind where the staging of one program fails. The sessions are those in which the install directory has been made, in
which the programs before it have been staged, and in which the staging has failed. -/
structure FailedFast (tools : Toolchain) (profile : Profile) (installDir : Path) (built : List (Program × File)) (p : Program)
    (rest : List Program) (e : Failure) (s₁ s₂ s' : Session) : Prop where
  /-- The compilations have been asked for up to the program's own, and that one too if its install path could be taken hold of. -/
  calls : (hold profile installDir p s₂ = .error e s' ∧ s'.calls = s₁.calls ++ compilations profile (built.map Prod.fst)) ∨
    ((∃ s₃, hold profile installDir p s₂ = .ok () s₃) ∧ s'.calls = s₁.calls ++ compilations profile (built.map Prod.fst ++ [p]))
  /-- The programs before it are installed. -/
  earlier : ∀ q f, (q, f) ∈ built → ∃ a, s₁.machine.seek installDir q.name = .ok a ∧
    Carries a.node? f (s'.machine.tree.node? a.place)
  /-- What was at the install paths of those after it is there. -/
  later : ∀ q ∈ rest, ∀ a, s₁.machine.seek installDir q.name = .ok a → s'.machine.tree.node? a.place = a.node?
  /-- If its own install path could be taken hold of, a file that was there is as it was, and nothing or a link is an empty file. -/
  held : ∀ s₃ a, hold profile installDir p s₂ = .ok () s₃ → s₁.machine.seek installDir p.name = .ok a →
    a.node? ≠ some .directory ∧ s'.machine.tree.node? a.place = some (Install.heldNode a.node?)
  /-- If not, what was there is there, unless it was a link that has been taken away. -/
  notHeld : ∀ a, hold profile installDir p s₂ = .error e s' → s₁.machine.seek installDir p.name = .ok a →
    s'.machine.tree.node? a.place = a.node? ∨ ∃ target, a.node? = some (.link target) ∧ s'.machine.tree.node? a.place = none
  /-- A directory at its install path cannot be taken hold of, and then nothing at all has changed. -/
  directory : ∀ a, s₁.machine.seek installDir p.name = .ok a → a.node? = some .directory →
    hold profile installDir p s₂ = .error e s' ∧ s'.machine = s₂.machine
  /-- A place that is no install path's and that the compiler leaves alone is as it was. -/
  elsewhere : ∀ place, AtCompile tools profile installDir s₁ (built.map Prod.fst ++ p :: rest) (KeepsPlace tools profile place) →
    (∀ q ∈ built.map Prod.fst ++ p :: rest, ∀ a, s₁.machine.seek installDir q.name = .ok a → place ≠ a.place) →
    s'.machine.tree.node? place = s₁.machine.tree.node? place

theorem failedFast (hn : ∀ q ∈ built.map Prod.fst ++ p :: rest, IsFileName q.name)
    (hdistinct : (built.map Prod.fst ++ p :: rest).Pairwise fun a b => a.name ≠ b.name)
    (hclean : AllClean tools profile installDir (built.map Prod.fst ++ p :: rest) s₁ (built.map Prod.fst ++ p :: rest))
    (hstaged : Staged tools profile installDir s₁ built s₂) (hfail : stageProgram tools profile installDir p s₂ = .error e s') :
    FailedFast tools profile installDir built p rest e s₁ s₂ s' := by
  have hp : p ∈ built.map Prod.fst ++ p :: rest := List.mem_append_right _ List.mem_cons_self
  have hfit := hclean.fit hn hstaged rfl hp
  obtain ⟨-, hrest, hcross⟩ := List.pairwise_append.1 hdistinct
  obtain ⟨hafter, -⟩ := List.pairwise_cons.1 hrest
  -- what the programs before it do, wherever an install path leads
  have heffect : ∀ {q a}, q ∈ built.map Prod.fst ++ p :: rest → s₁.machine.seek installDir q.name = .ok a →
      Tree.Nameable installDir q.name ∧ ∃ d, s₂.machine.Reaches installDir d ∧ a.place = q.name :: d ∧
        a.node? = s₁.machine.tree.node? (q.name :: d) ∧
        ((∀ pf ∈ built, pf.1.name ≠ q.name) → s₂.machine.tree.node? (q.name :: d) = s₁.machine.tree.node? (q.name :: d)) := by
    intro q a hq hseek
    obtain ⟨hname, d, hd, rfl⟩ := (Machine.seek_eq_ok (hn q hq)).1 hseek
    obtain ⟨-, hsame, -⟩ := hstaged.effect hn (fun _ hq => hq) hclean rfl hdistinct hd
    exact ⟨hname, d, hsame.1, Tree.place_under _ _ _, Tree.node?_under _ _ _, fun hne => hsame.2 q.name ⟨⟨q, hq, rfl⟩, hne⟩ hname⟩
  have hearlier : ∀ pf ∈ built, pf.1.name ≠ p.name := fun pf hpf => hcross pf.1 (List.mem_map_of_mem hpf) p List.mem_cons_self
  have hheld : ∀ s₃ a, hold profile installDir p s₂ = .ok () s₃ → s₁.machine.seek installDir p.name = .ok a →
      a.node? ≠ some .directory ∧ s'.machine.tree.node? a.place = some (Install.heldNode a.node?) := by
    intro s₃ a hhold hseek
    obtain ⟨-, d, hd, hplace, hnode, hsame⟩ := heffect hp hseek
    have hleft := held_of_stageProgram_error hfit hfail hd hhold
    rw [hsame hearlier, ← hnode, ← hplace] at hleft
    exact hleft
  refine ⟨?_, ?_, ?_, hheld, ?_, ?_, ?_⟩
  · have hcalls := hstaged.calls hn (fun _ hq => hq) hclean rfl hdistinct
    rcases calls_of_stageProgram_error hfit hfail with ⟨hhold, hc⟩ | ⟨hhold, hc⟩
    · exact Or.inl ⟨hhold, hc.trans hcalls⟩
    · refine Or.inr ⟨hhold, ?_⟩
      rw [hc, hcalls, compilations, compilations, List.map_append, List.append_assoc]
      rfl
  · intro q f hqf
    have hqmem : q ∈ built.map Prod.fst := List.mem_map_of_mem hqf
    have hq := List.mem_append_left (p :: rest) hqmem
    obtain ⟨d, hd⟩ := hstaged.reaches (fun q hq => hn q (List.mem_append_left _ hq)) (List.ne_nil_of_mem hqf)
    obtain ⟨-, hsame, hcarries⟩ := hstaged.effect hn (fun _ hq => hq) hclean rfl hdistinct hd
    obtain ⟨hname, hcarried⟩ := hcarries (q, f) hqf
    refine ⟨s₁.machine.tree.under d q.name, (Machine.seek_eq_ok (hn q hq)).2 ⟨hname, d, hd, rfl⟩, ?_⟩
    rw [Tree.node?_under, Tree.place_under,
      others_of_stageProgram_error hfit hfail hsame.1 ⟨q, hq, rfl⟩ (hcross q hqmem p List.mem_cons_self) hname]
    exact hcarried
  · intro q hq a hseek
    have hqmem := List.mem_append_right (built.map Prod.fst) (List.mem_cons_of_mem p hq)
    obtain ⟨hname, d, hd, hplace, hnode, hsame⟩ := heffect hqmem hseek
    rw [hplace, others_of_stageProgram_error hfit hfail hd ⟨q, hqmem, rfl⟩ (hafter q hq).symm hname, hnode]
    exact hsame fun pf hpf => hcross pf.1 (List.mem_map_of_mem hpf) q (List.mem_cons_of_mem _ hq)
  · intro a hhold hseek
    obtain ⟨-, d, hd, hplace, hnode, hsame⟩ := heffect hp hseek
    rw [hplace, hnode, ← hsame hearlier]
    rcases notHeld_of_hold_error (hn p hp) hhold hd with hm | hgone
    · exact Or.inl (by rw [hm])
    · exact Or.inr hgone
  · intro a hseek hdir
    obtain ⟨-, d, hd, hplace, hnode, hsame⟩ := heffect hp hseek
    rcases calls_of_stageProgram_error hfit hfail with ⟨hhold, -⟩ | ⟨⟨s₃, hhold⟩, -⟩
    · refine ⟨hhold, ?_⟩
      rcases notHeld_of_hold_error (hn p hp) hhold hd with hm | ⟨target, hlink, -⟩
      · exact hm
      · rw [hsame hearlier, ← hnode, hdir] at hlink
        cases hlink
    · exact absurd hdir (hheld s₃ a hhold hseek).1
  · intro place hkeep hne
    have hout : Outside installDir (built.map Prod.fst ++ p :: rest) place s₁.machine := by
      intro q hq hname d hd
      have hplace := hne q hq _ ((Machine.seek_eq_ok (hn q hq)).2 ⟨hname, d, hd, rfl⟩)
      rwa [Tree.place_under] at hplace
    obtain ⟨hrow, hout₂⟩ := hstaged.elsewhere hn (fun _ hq => hq) hclean hkeep rfl hout
    have hlast := elsewhere_of_stageProgram hfit (fun s₃ hhold => hkeep built p rest s₂ s₃ rfl hstaged hhold)
      fun d hname hd => hout₂ p hp hname d hd
    rw [hfail, endOf_error] at hlast
    exact hlast.trans hrow

/-- Making the install directory only adds directories, and nothing if the directory is there. -/
theorem growsBy_of_ready (h : ready installDir s = .ok () s₁) :
    s.machine.tree.GrowsBy s₁.machine.tree ∧ (s.machine.tree.isDirectory s.machine.cwd installDir = true → s₁.machine.tree = s.machine.tree) := by
  obtain ⟨m, hm, rfl⟩ := Act.toRun_eq_ok.1 (during_eq_ok.1 h)
  have hgrows := FileCall.growsBy_makeDirectories s.machine.cwd installDir s.machine.tree
  cases hmake : FileCall.makeDirectories s.machine.cwd installDir s.machine.tree with
  | error e t =>
    rw [Act.files_of_error (fun cwd => FileCall.makeDirectories cwd installDir) hmake] at hm
    cases hm
  | ok v t =>
    rw [Act.files_of_ok (fun cwd => FileCall.makeDirectories cwd installDir) hmake] at hm
    cases hm
    rw [hmake] at hgrows
    refine ⟨hgrows, fun hdir => ?_⟩
    rw [FileCall.makeDirectories_of_directory hdir] at hmake
    cases hmake
    rfl

/-- A staging fails where the staging of one of the programs does. -/
theorem rebuild_of_stageProgram_error (before : List Program)
    (hdisc : Program.discover sourceDir s.machine = .ok (before ++ p :: rest) s.machine) (hready : ready installDir s = .ok () s₁)
    {installed : List Installed} (hbefore : before.mapM (stageProgram tools profile installDir) s₁ = .ok installed s₂)
    (hfail : stageProgram tools profile installDir p s₂ = .error e s') : rebuild tools profile sourceDir installDir s = .error e s' := by
  have hne : before ++ p :: rest ≠ [] := List.append_ne_nil_of_right_ne_nil _ (List.cons_ne_nil _ _)
  rw [rebuild_of_found tools profile installDir hdisc hne]
  exact (bind_of_ok hready).trans (bind_of_error (mapM_of_error rest hbefore hfail))

/-- A staging in which the staging of one program fails, after that of all before it in the order of names, fails with the same, and so does
that of a project, which puts nothing on record then. What is left behind is told by `FailedFast`, from the session in which the install
directory has been made; that session has at most directories added, and none where the install directory was there. -/
theorem rebuild_fails_fast (tools : Toolchain) (profile : Profile) (sourceDir installDir : Path) (built : List (Program × File))
    (p : Program) (rest : List Program) (e : Failure) (s s₁ s₂ s' : Session) (hw : s.machine.tree.WellNamed)
    (hdisc : Program.discover sourceDir s.machine = .ok (built.map Prod.fst ++ p :: rest) s.machine)
    (hready : ready installDir s = .ok () s₁)
    (hclean : AllClean tools profile installDir (built.map Prod.fst ++ p :: rest) s₁ (built.map Prod.fst ++ p :: rest))
    (hstaged : Staged tools profile installDir s₁ built s₂) (hfail : stageProgram tools profile installDir p s₂ = .error e s') :
    rebuild tools profile sourceDir installDir s = .error e s' ∧
      (∀ project : Project, project.profile = profile → project.config.userspace.sourceDir = sourceDir →
        project.config.userspace.installDir = installDir → project.stage tools s = .error e s') ∧
      s₁.calls = s.calls ∧ s.machine.tree.GrowsBy s₁.machine.tree ∧
      (s.machine.tree.isDirectory s.machine.cwd installDir = true → s₁.machine.tree = s.machine.tree) ∧
      FailedFast tools profile installDir built p rest e s₁ s₂ s' := by
  obtain ⟨hn, hsorted⟩ := Program.discover_ok hw hdisc
  obtain ⟨installed, hmap⟩ := hstaged.mapM
  have hrebuild := rebuild_of_stageProgram_error _ hdisc hready hmap hfail
  obtain ⟨hgrows, hsame⟩ := growsBy_of_ready hready
  refine ⟨hrebuild, ?_, calls_of_ready hready, hgrows, hsame,
    failedFast hn (hsorted.imp fun h => String.ne_of_lt h) hclean hstaged hfail⟩
  rintro project rfl rfl rfl
  exact bind_of_error hrebuild

/-! ### Runs of it -/

/-- A session on a machine where there are two programs to stage. -/
def sampleTwo : Session where
  machine :=
    { tree := ⟨[(["src"], .directory), (["a.rs", "src"], .file (.new newFileMode)), (["c.rs", "src"], .file (.new newFileMode))]⟩,
      cwd := [], searchPath := "", home := ⟨""⟩, clock := 0 }

/-- Who fails at everything leaves everything alone. -/
theorem clean_failing (profile : Profile) (installDir : Path) (programs : List Program) (p : Program) (m : Machine) :
    Clean .failing profile installDir programs p m :=
  ⟨fun _ _ => rfl, nofun⟩

theorem wellNamed_sampleTwo : sampleTwo.machine.tree.WellNamed := by decide

theorem discover_sampleTwo :
    Program.discover ⟨"src"⟩ sampleTwo.machine = .ok [⟨"a", ⟨"src/a.rs"⟩⟩, ⟨"c", ⟨"src/c.rs"⟩⟩] sampleTwo.machine :=
  Program.discover_of_listed ["a.rs", "c.rs"] (by decide +kernel)

/-- Where the first of two programs cannot be compiled, the second is not come to. -/
theorem rebuild_fails_fast_sampleTwo :
    sampleTwo.machine.tree.WellNamed ∧
      Program.discover ⟨"src"⟩ sampleTwo.machine = .ok [⟨"a", ⟨"src/a.rs"⟩⟩, ⟨"c", ⟨"src/c.rs"⟩⟩] sampleTwo.machine ∧
      ∃ s₁ s' e, ready ⟨"inst"⟩ sampleTwo = .ok () s₁ ∧
        AllClean .failing .release ⟨"inst"⟩ [⟨"a", ⟨"src/a.rs"⟩⟩, ⟨"c", ⟨"src/c.rs"⟩⟩] s₁
          [⟨"a", ⟨"src/a.rs"⟩⟩, ⟨"c", ⟨"src/c.rs"⟩⟩] ∧
        Staged .failing .release ⟨"inst"⟩ s₁ [] s₁ ∧
        stageProgram .failing .release ⟨"inst"⟩ ⟨"a", ⟨"src/a.rs"⟩⟩ s₁ = .error e s' ∧
        rebuild .failing .release ⟨"src"⟩ ⟨"inst"⟩ sampleTwo = .error e s' ∧
        ∀ a, s₁.machine.seek ⟨"inst"⟩ "c" = .ok a → s'.machine.tree.node? a.place = a.node? := by
  have hended : endedWell (ready ⟨"inst"⟩ sampleTwo) = true ∧
      endedWell (stageProgram .failing .release ⟨"inst"⟩ ⟨"a", ⟨"src/a.rs"⟩⟩ (endOf (ready ⟨"inst"⟩ sampleTwo))) = false := by
    decide +kernel
  obtain ⟨hready, hfail⟩ := hended
  obtain ⟨_, s₁, hready⟩ := endedWell_iff.1 hready
  rw [hready, endOf_ok] at hfail
  obtain ⟨e, s', hfail⟩ := endedWell_eq_false_iff.1 hfail
  have hclean : AllClean .failing .release ⟨"inst"⟩ [⟨"a", ⟨"src/a.rs"⟩⟩, ⟨"c", ⟨"src/c.rs"⟩⟩] s₁
      [⟨"a", ⟨"src/a.rs"⟩⟩, ⟨"c", ⟨"src/c.rs"⟩⟩] := fun _ _ _ _ _ _ _ _ => clean_failing _ _ _ _ _
  obtain ⟨hrebuild, -, -, -, -, hleft⟩ := rebuild_fails_fast .failing .release ⟨"src"⟩ ⟨"inst"⟩ [] ⟨"a", ⟨"src/a.rs"⟩⟩
    [⟨"c", ⟨"src/c.rs"⟩⟩] e sampleTwo s₁ s₁ s' wellNamed_sampleTwo discover_sampleTwo hready hclean (.nil s₁) hfail
  have hlater := hleft.later ⟨"c", ⟨"src/c.rs"⟩⟩ List.mem_cons_self
  exact ⟨wellNamed_sampleTwo, discover_sampleTwo, s₁, s', e, hready, hclean, .nil s₁, hfail, hrebuild, hlater⟩

/-! ### Install directories whose paths lead through install paths -/

/-- A session on a machine where there is a program to stage, and a directory in which a link of its name leads to another. -/
def sampleLink : Session where
  machine :=
    { tree := ⟨[(["src"], .directory), (["x.rs", "src"], .file (.new newFileMode)), (["d"], .directory), (["y", "d"], .directory),
        (["x", "d"], .link ⟨"y"⟩)]⟩,
      cwd := [], searchPath := "", home := ⟨""⟩, clock := 0 }

/-- What comes of the first of the two programs, where the path of the install directory leads through the install path of the second. -/
def throughLater : EStateM.Result Failure Session Installed :=
  stageProgram .failing .release ⟨"inst/c/.."⟩ ⟨"a", ⟨"src/a.rs"⟩⟩ (endOf (ready ⟨"inst/c/.."⟩ sampleTwo))

/-- A staging that fails can leave something at the install path of a program after the one that failed, where there was nothing: an
install directory that is missing is made along its path, and that path can lead through an install path. And a program's install path
can be left with nothing, where there was a link: the link is taken away, and the path of the install directory led through it. -/
theorem rebuild_through_install_paths :
    (∃ e s', Program.discover ⟨"src"⟩ sampleTwo.machine = .ok [⟨"a", ⟨"src/a.rs"⟩⟩, ⟨"c", ⟨"src/c.rs"⟩⟩] sampleTwo.machine ∧
      rebuild .failing .release ⟨"src"⟩ ⟨"inst/c/.."⟩ sampleTwo = .error e s' ∧ s'.calls = [.compile "a" .release] ∧
      sampleTwo.machine.tree.node? ["c", "inst"] = none ∧ (sampleTwo.machine.seek ⟨"inst/c/.."⟩ "c").toOption = none ∧
      (s'.machine.seek ⟨"inst/c/.."⟩ "c").toOption = some (.found ["c", "inst"] .directory false)) ∧
    (∃ e s', rebuild .failing .release ⟨"src"⟩ ⟨"d/x/.."⟩ sampleLink = .error e s' ∧
      (sampleLink.machine.seek ⟨"d/x/.."⟩ "x").toOption = some (.found ["x", "d"] (.link ⟨"y"⟩) false) ∧
      s'.machine.tree.node? ["x", "d"] = none) := by
  constructor
  · have hruns : endedWell (ready ⟨"inst/c/.."⟩ sampleTwo) = true ∧ endedWell throughLater = false ∧
        (endOf throughLater).calls = [.compile "a" .release] ∧
        ((endOf throughLater).machine.seek ⟨"inst/c/.."⟩ "c").toOption = some (.found ["c", "inst"] .directory false) ∧
        sampleTwo.machine.tree.node? ["c", "inst"] = none ∧ (sampleTwo.machine.seek ⟨"inst/c/.."⟩ "c").toOption = none := by
      decide +kernel
    obtain ⟨hready, hfail, hcalls, hseek, hnode, hnone⟩ := hruns
    obtain ⟨_, s₁, hready⟩ := endedWell_iff.1 hready
    rw [throughLater, hready, endOf_ok] at hfail hcalls hseek
    obtain ⟨e, s', hfail⟩ := endedWell_eq_false_iff.1 hfail
    rw [hfail, endOf_error] at hcalls hseek
    exact ⟨e, s', discover_sampleTwo, rebuild_of_stageProgram_error [] discover_sampleTwo hready rfl hfail, hcalls, hnode, hnone, hseek⟩
  · have hruns : endedWell (rebuild .failing .release ⟨"src"⟩ ⟨"d/x/.."⟩ sampleLink) = false ∧
        (sampleLink.machine.seek ⟨"d/x/.."⟩ "x").toOption = some (.found ["x", "d"] (.link ⟨"y"⟩) false) ∧
        (endOf (rebuild .failing .release ⟨"src"⟩ ⟨"d/x/.."⟩ sampleLink)).machine.tree.node? ["x", "d"] = none := by decide +kernel
    obtain ⟨hended, hlink, hgone⟩ := hruns
    obtain ⟨e, s', h⟩ := endedWell_eq_false_iff.1 hended
    rw [h, endOf_error] at hgone
    exact ⟨e, s', h, hlink, hgone⟩

end Staging

end BootDisk
