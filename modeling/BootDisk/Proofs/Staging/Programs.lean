import BootDisk.Proofs.Staging

/-!
# Staging programs one after the other

`Staged` tells a row of programs that were all staged, each with the file that it was compiled to on its turn. What the row does to the
install directory is put together from what each program does (`Staged.effect`): under each of their names is what that one was compiled
to, and nothing has changed under any other program's.
-/

namespace BootDisk

namespace Staging

/-- Programs are staged one after the other, from a session to another, each from the file that it is compiled to. -/
inductive Staged (tools : Toolchain) (profile : Profile) (installDir : Path) : Session → List (Program × File) → Session → Prop where
  | nil (s : Session) : Staged tools profile installDir s [] s
  | cons {s s₁ s' : Session} {p : Program} {f : File} {i : Installed} {rest : List (Program × File)} :
      stageProgram tools profile installDir p s = .ok i s₁ → CompiledTo tools profile installDir s p f →
      Staged tools profile installDir s₁ rest s' → Staged tools profile installDir s ((p, f) :: rest) s'

/-- Something is so of a program and a machine, wherever the one is compiled on the other when programs are staged from a session. -/
def AtCompile (tools : Toolchain) (profile : Profile) (installDir : Path) (s : Session) (todo : List Program)
    (P : Program → Machine → Prop) : Prop :=
  ∀ done p rest s₁ s₂, todo = done.map Prod.fst ++ p :: rest → Staged tools profile installDir s done s₁ →
    hold profile installDir p s₁ = .ok () s₂ → P p s₂.machine

/-- The compiler is clean for all the programs, wherever it is called when those that are to do are staged from a session. -/
def AllClean (tools : Toolchain) (profile : Profile) (installDir : Path) (programs : List Program) (s : Session) (todo : List Program) :
    Prop :=
  AtCompile tools profile installDir s todo (Clean tools profile installDir programs)

variable {tools : Toolchain} {profile : Profile} {installDir : Path} {programs todo rest : List Program} {p : Program}
variable {done : List (Program × File)} {s s₁ s' : Session} {d : Place} {f : File}

/-- What is so wherever programs are compiled is so when the first of them has been staged. -/
theorem AtCompile.tail {P : Program → Machine → Prop} {i : Installed} (h : AtCompile tools profile installDir s (p :: todo) P)
    (hp : stageProgram tools profile installDir p s = .ok i s₁) (hf : CompiledTo tools profile installDir s p f) :
    AtCompile tools profile installDir s₁ todo P := by
  intro done q rest s₂ s₃ htodo hdone
  exact h ((p, f) :: done) q rest s₂ s₃ (by rw [htodo]; rfl) (.cons hp hf hdone)

/-- Where a row of programs has been staged, the next one is fit to be staged. -/
theorem AllClean.fit (h : AllClean tools profile installDir programs s todo) (hn : ∀ q ∈ programs, IsFileName q.name)
    (hdone : Staged tools profile installDir s done s₁) (htodo : todo = done.map Prod.fst ++ p :: rest) (hp : p ∈ programs) :
    Fit tools profile installDir programs p s₁ :=
  ⟨hn, hp, fun s₂ hhold => h done p rest s₁ s₂ htodo hdone hhold⟩

/-- What a row of staged programs is, as work over a list. -/
theorem Staged.mapM (h : Staged tools profile installDir s done s') :
    ∃ installed, (done.map Prod.fst).mapM (stageProgram tools profile installDir) s = .ok installed s' := by
  induction h with
  | nil _ => exact ⟨[], rfl⟩
  | cons hp _ _ ih =>
    obtain ⟨installed, hrest⟩ := ih
    exact ⟨_, mapM_cons_eq_ok.2 ⟨_, _, _, hp, hrest, rfl⟩⟩

/-- Programs that are all staged are reported in their order, each under its install path. -/
theorem installed_of_mapM {installed : List Installed} (h : todo.mapM (stageProgram tools profile installDir) s = .ok installed s') :
    installed = todo.map fun q => ⟨q.name, installDir.join ⟨q.name⟩⟩ := by
  induction todo generalizing s installed with
  | nil =>
    rw [List.mapM_nil, pure_run] at h
    cases h
    rfl
  | cons p todo ih =>
    obtain ⟨i, s₁, is, hp, hrest, rfl⟩ := mapM_cons_eq_ok.1 h
    rw [value_of_stageProgram hp, ih hrest]
    rfl

/-- Programs that are all staged are a row of staged programs, and the report is of them. -/
theorem staged_of_mapM {installed : List Installed} (hn : ∀ q ∈ programs, IsFileName q.name) (hsub : ∀ q ∈ todo, q ∈ programs)
    (hclean : AllClean tools profile installDir programs s todo)
    (h : todo.mapM (stageProgram tools profile installDir) s = .ok installed s') :
    installed = todo.map (fun q => ⟨q.name, installDir.join ⟨q.name⟩⟩) ∧
      ∃ done, done.map Prod.fst = todo ∧ Staged tools profile installDir s done s' := by
  refine ⟨installed_of_mapM h, ?_⟩
  induction todo generalizing s installed with
  | nil =>
    rw [List.mapM_nil, pure_run] at h
    cases h
    exact ⟨[], rfl, .nil _⟩
  | cons p todo ih =>
    obtain ⟨i, s₁, is, hp, hrest, rfl⟩ := mapM_cons_eq_ok.1 h
    have hfit := hclean.fit hn (.nil s) (List.nil_append _).symm (hsub p List.mem_cons_self)
    obtain ⟨-, -, -, d, f, -, hf, -⟩ := stageProgram_ok hfit hp
    obtain ⟨done, rfl, hdone⟩ := ih (fun q hq => hsub q (List.mem_cons_of_mem _ hq)) (AtCompile.tail hclean hp hf) hrest
    exact ⟨(p, f) :: done, rfl, .cons hp hf hdone⟩

/-- On one turn a program is compiled to one file. -/
theorem CompiledTo.unique {g : File} (hf : CompiledTo tools profile installDir s p f) (hg : CompiledTo tools profile installDir s p g) :
    g = f := by
  obtain ⟨s₁, binary, s₂, origin, hhold, hcomp, hs⟩ := hf
  obtain ⟨s₁', binary', s₂', origin', hhold', hcomp', hs'⟩ := hg
  cases hhold.symm.trans hhold'
  cases hcomp.symm.trans hcomp'
  cases hs.symm.trans hs'
  rfl

/-- The compilations that a row of staged programs asks for. -/
def compilations (profile : Profile) (programs : List Program) : List ToolCall :=
  programs.map fun q => .compile q.name profile

/-- What a row of staged programs does. Their compilations are asked for in order, and nothing else; each of them is under its name then;
and under the names of the others nothing has changed. -/
theorem Staged.effect (h : Staged tools profile installDir s done s') (hn : ∀ q ∈ programs, IsFileName q.name)
    (hsub : ∀ q ∈ todo, q ∈ programs) (hclean : AllClean tools profile installDir programs s todo)
    (htodo : todo = done.map Prod.fst ++ rest) (hdistinct : todo.Pairwise fun a b => a.name ≠ b.name)
    (hd : s.machine.Reaches installDir d) :
    s'.calls = s.calls ++ compilations profile (done.map Prod.fst) ∧
      SameUnder installDir d (fun n => Named programs n ∧ ∀ pf ∈ done, pf.1.name ≠ n) s.machine s'.machine ∧
      ∀ pf ∈ done, Tree.Nameable installDir pf.1.name ∧
        Carries (s.machine.tree.node? (pf.1.name :: d)) pf.2 (s'.machine.tree.node? (pf.1.name :: d)) := by
  induction h generalizing todo with
  | nil s => exact ⟨(List.append_nil _).symm, ⟨hd, fun _ _ _ => rfl⟩, nofun⟩
  | @cons s s₁ s' p f i done hp hf hdone ih =>
    subst htodo
    have hfit := hclean.fit hn (.nil s) (List.nil_append _).symm (hsub p List.mem_cons_self)
    obtain ⟨-, hcalls, hname, d', g, hd', hg, hsame, hcarries⟩ := stageProgram_ok hfit hp
    cases hd.unique hd'
    cases hf.unique hg
    obtain ⟨hne, hdistinct'⟩ := List.pairwise_cons.1 hdistinct
    obtain ⟨hcalls', hsame', hcarries'⟩ := ih (fun q hq => hsub q (List.mem_cons_of_mem _ hq)) (AtCompile.tail hclean hp hf) rfl hdistinct' hsame.1
    -- a later program has another name, so that each step leaves what the others are about
    have hlater : ∀ pf ∈ done, pf.1.name ≠ p.name := fun pf hpf =>
      (hne pf.1 (List.mem_append_left _ (List.mem_map_of_mem hpf))).symm
    refine ⟨by rw [hcalls', hcalls, List.append_assoc]; rfl, ?_, ?_⟩
    · have h₁ := hsame.mono (fun n => Named programs n ∧ ∀ pf ∈ (p, f) :: done, pf.1.name ≠ n)
        fun n hn => ⟨hn.1, (hn.2 (p, f) List.mem_cons_self).symm⟩
      exact h₁.trans (hsame'.mono _ fun n hn => ⟨hn.1, fun pf hpf => hn.2 pf (List.mem_cons_of_mem _ hpf)⟩)
    · intro pf hpf
      rcases List.mem_cons.1 hpf with rfl | hpf
      · refine ⟨hname, ?_⟩
        rw [hsame'.2 p.name ⟨⟨p, hfit.mem, rfl⟩, hlater⟩ hname]
        exact hcarries
      · obtain ⟨hname', hpf'⟩ := hcarries' pf hpf
        have hmem : pf.1 ∈ programs := hsub pf.1 (List.mem_cons_of_mem _ (List.mem_append_left _ (List.mem_map_of_mem hpf)))
        rw [hsame.2 pf.1.name ⟨⟨pf.1, hmem, rfl⟩, hlater pf hpf⟩ hname'] at hpf'
        exact ⟨hname', hpf'⟩

end Staging

end BootDisk
