import BootDisk.Proofs.Install
import BootDisk.Staging

/-!
# What staging one program does

Staging a program is three parts in a row (`Staging.stageProgram_eq`): its install path is taken hold of, it is compiled, and the binary
is put in. The compiler is any act at all; what is assumed of it is that it leaves the install paths alone (`Staging.Clean`). Under that,
staging a program changes what stands under its own name in the install directory, and under no other program's (`SameUnder`).

A whole staging of a project comes to one of four ends, by what becomes of its programs and of their record (`Project.stage_outcome`).
-/

namespace BootDisk

/-- From one machine to the other the directory is at the same place, and the same stands under those names. -/
def SameUnder (dir : Path) (d : Place) (names : String → Prop) (m m' : Machine) : Prop :=
  m'.Reaches dir d ∧ ∀ n, names n → Tree.Nameable dir n → m'.tree.node? (n :: d) = m.tree.node? (n :: d)

namespace SameUnder

variable {dir : Path} {d : Place} {names : String → Prop} {m m' m'' : Machine}

theorem trans (h : SameUnder dir d names m m') (h' : SameUnder dir d names m' m'') : SameUnder dir d names m m'' :=
  ⟨h'.1, fun n hn hname => (h'.2 n hn hname).trans (h.2 n hn hname)⟩

theorem mono (h : SameUnder dir d names m m') (names' : String → Prop) (hsub : ∀ n, names' n → names n) : SameUnder dir d names' m m' :=
  ⟨h.1, fun n hn => h.2 n (hsub n hn)⟩

/-- A change under one name leaves the others as they are. -/
theorem of_agree {n : String} (ha : Tree.AgreeOff m.tree m'.tree (n :: d)) (hd : m'.Reaches dir d) :
    SameUnder dir d (· ≠ n) m m' :=
  ⟨hd, fun _ hne _ => ha _ fun heq => hne (List.cons.inj heq).1⟩

end SameUnder

namespace Staging

/-! ## The parts -/

/-- Takes hold of a program's install path. -/
def hold (profile : Profile) (installDir : Path) (p : Program) : Run Unit := do
  Install.placeholder (installDir.join ⟨p.name⟩)
  Act.print s!"[stage] building {p.name} ({profile.name})"

/-- Has a program compiled. -/
def compile (tools : Toolchain) (profile : Profile) (p : Program) : Run Path :=
  during (.staging p.name) (Run.call (.compile p.name profile) (tools.compile p.name profile))

/-- Puts a program's binary in. -/
def putIn (installDir : Path) (p : Program) (binary : Path) : Run Installed := do
  Install.copyIn binary (installDir.join ⟨p.name⟩)
  return ⟨p.name, installDir.join ⟨p.name⟩⟩

/-- Staging a program is its parts, one after the other. -/
theorem stageProgram_eq (tools : Toolchain) (profile : Profile) (installDir : Path) (p : Program) :
    stageProgram tools profile installDir p =
      hold profile installDir p >>= fun _ => compile tools profile p >>= fun binary => putIn installDir p binary := by
  simp only [stageProgram, hold, compile, putIn, bind_assoc]

variable {tools : Toolchain} {profile : Profile} {installDir : Path} {programs : List Program} {p : Program}
variable {s s₁ s₂ s' : Session} {d : Place} {node : Node} {f : File}

/-- A program that is staged is reported under its install path. -/
theorem value_of_stageProgram {i : Installed} (h : stageProgram tools profile installDir p s = .ok i s') :
    i = ⟨p.name, installDir.join ⟨p.name⟩⟩ := by
  rw [stageProgram_eq] at h
  obtain ⟨_, s₁, -, h⟩ := bind_eq_ok.1 h
  obtain ⟨binary, s₂, -, h⟩ := bind_eq_ok.1 h
  obtain ⟨_, s₃, -, h⟩ := bind_eq_ok.1 h
  rw [pure_run] at h
  cases h
  rfl

/-- Taking hold of an install path ends well if the placeholder can be made. -/
theorem hold_of_ok {m : Machine} (profile : Profile) (h : Install.placeholder (installDir.join ⟨p.name⟩) s.machine = .ok () m) :
    ∃ s₁, hold profile installDir p s = .ok () s₁ ∧ s₁.machine.tree = m.tree ∧ s₁.machine.cwd = m.cwd ∧ s₁.calls = s.calls := by
  obtain ⟨s₁, hs₁, ha⟩ := Act.print_toRun s!"[stage] building {p.name} ({profile.name})" { s with machine := m }
  exact ⟨s₁, (bind_of_ok (Act.toRun_of_ok h)).trans hs₁, ha⟩

theorem hold_of_error {m : Machine} {e : Failure} (profile : Profile)
    (h : Install.placeholder (installDir.join ⟨p.name⟩) s.machine = .error e m) :
    hold profile installDir p s = .error e { s with machine := m } :=
  bind_of_error (Act.toRun_of_error h)

/-- Taking hold that ends well changes what stands under the program's name, if that is nothing or a link. -/
theorem hold_ok (hn : IsFileName p.name) (h : hold profile installDir p s = .ok () s₁) :
    s₁.calls = s.calls ∧ Tree.Nameable installDir p.name ∧ ∃ d, s.machine.Reaches installDir d ∧ s₁.machine.Reaches installDir d ∧
      Tree.AgreeOff s.machine.tree s₁.machine.tree (p.name :: d) ∧ s.machine.tree.node? (p.name :: d) ≠ some .directory ∧
      s₁.machine.tree.node? (p.name :: d) = some (Install.heldNode (s.machine.tree.node? (p.name :: d))) := by
  cases hp : Install.placeholder (installDir.join ⟨p.name⟩) s.machine with
  | ok v m =>
    obtain ⟨s₁', hs₁, htree, hcwd, hcalls⟩ := hold_of_ok profile hp
    rw [h] at hs₁
    cases hs₁
    obtain ⟨hname, d, hd, hd', -, ha, hdir, hnode⟩ := Install.placeholder_ok hn hp
    rw [← htree] at ha hnode
    have hd₁ : s₁.machine.Reaches installDir d := by
      rw [Machine.Reaches, htree, hcwd]
      exact hd'
    exact ⟨hcalls, hname, d, hd, hd₁, ha, hdir, hnode⟩
  | error e m =>
    rw [hold_of_error profile hp] at h
    cases h

/-- Taking hold that fails calls nothing, and changes nothing or takes a link away that stands under the program's name. -/
theorem hold_error (hn : IsFileName p.name) {e : Failure} (h : hold profile installDir p s = .error e s₁) :
    s₁.calls = s.calls ∧ (s₁.machine = s.machine ∨ ∃ d target, Tree.Nameable installDir p.name ∧ s.machine.Reaches installDir d ∧
      s.machine.tree.node? (p.name :: d) = some (.link target) ∧
      s₁.machine = { s.machine with tree := s.machine.tree.erase (p.name :: d) }) := by
  cases hp : Install.placeholder (installDir.join ⟨p.name⟩) s.machine with
  | ok v m =>
    obtain ⟨s₁', hs₁, -⟩ := hold_of_ok profile hp
    rw [h] at hs₁
    cases hs₁
  | error e' m =>
    rw [hold_of_error profile hp] at h
    cases h
    exact ⟨rfl, Install.placeholder_error hn hp⟩

/-- Having a program compiled is the compiler's doing, and on record. -/
theorem endOf_compile (tools : Toolchain) (profile : Profile) (p : Program) (s : Session) :
    endOf (compile tools profile p s) = ⟨endOf (tools.compile p.name profile s.machine), s.calls ++ [.compile p.name profile]⟩ := by
  rw [compile, endOf_during, Run.endOf_call]

/-- A program that was compiled was compiled by the tool. -/
theorem compile_ok {binary : Path} (h : compile tools profile p s = .ok binary s₁) :
    tools.compile p.name profile s.machine = .ok binary s₁.machine ∧ s₁.calls = s.calls ++ [.compile p.name profile] := by
  obtain ⟨m, hm, rfl⟩ := Run.call_eq_ok.1 (during_eq_ok.1 h)
  exact ⟨hm, rfl⟩

/-- Putting a binary in, over a file or a device, fails and changes nothing if the binary is no regular file. It ends well for any other,
and what stands under the program's name is all that changes. -/
theorem putIn_cases (hn : IsFileName p.name) (hname : Tree.Nameable installDir p.name) (hd : s.machine.Reaches installDir d)
    (hnode : s.machine.tree.node? (p.name :: d) = some node) (hdir : node.isDirectory = false) (hlink : node.isLink = false)
    (binary : Path) :
    ((∀ origin f, s.machine.tree.entry s.machine.cwd binary .through ≠ .ok (origin, .file f)) ∧
        ∃ e, putIn installDir p binary s = .error e s) ∨
      ∃ origin f s', s.machine.tree.entry s.machine.cwd binary .through = .ok (origin, .file f) ∧
        putIn installDir p binary s = .ok ⟨p.name, installDir.join ⟨p.name⟩⟩ s' ∧ s'.calls = s.calls ∧ s'.machine.Reaches installDir d ∧
        Tree.AgreeOff s.machine.tree s'.machine.tree (p.name :: d) ∧
        s'.machine.tree.node? (p.name :: d) = some (Install.installed (p.name :: d) origin f node) := by
  rcases Install.copyIn_cases hn hname hd hnode hdir hlink binary with ⟨hno, e, he⟩ | ⟨origin, f, m', hs, hok, -, ha, hd', hnode'⟩
  · exact Or.inl ⟨hno, e, bind_of_error (Act.toRun_of_error he)⟩
  · exact Or.inr ⟨origin, f, { s with machine := m' }, hs, bind_of_ok (Act.toRun_of_ok hok), rfl, hd', ha, hnode'⟩

/-! ## The whole -/

/-- Compiling a program leaves what stands under the programs' names in the install directory alone, and the binary is none of it. -/
structure Clean (tools : Toolchain) (profile : Profile) (installDir : Path) (programs : List Program) (p : Program) (m : Machine) :
    Prop where
  keeps : ∀ q ∈ programs, (endOf (tools.compile p.name profile m)).seek installDir q.name = m.seek installDir q.name
  apart : ∀ binary m', tools.compile p.name profile m = .ok binary m' → ∀ q ∈ programs, ∀ a place node,
    m'.seek installDir q.name = .ok a → m'.tree.entry m'.cwd binary .through = .ok (place, node) → place ≠ a.place

/-- A program is compiled, on its turn, to a file: the one that the binary's path leads to when the compiler is done. -/
def CompiledTo (tools : Toolchain) (profile : Profile) (installDir : Path) (s : Session) (p : Program) (f : File) : Prop :=
  ∃ s₁ binary s₂ origin, hold profile installDir p s = .ok () s₁ ∧ compile tools profile p s₁ = .ok binary s₂ ∧
    s₂.machine.tree.entry s₂.machine.cwd binary .through = .ok (origin, .file f)

/-- What is installed under a name is the compiled file, executable, unless a device was there. -/
def Carries (before : Option Node) (f : File) (after : Option Node) : Prop :=
  before ≠ some .device → ∃ g, after = some (.file g) ∧ g.content = f.content ∧ g.mode = Nat.lor f.mode Install.executeBits

/-- The names of programs. -/
def Named (programs : List Program) (n : String) : Prop :=
  ∃ q ∈ programs, q.name = n

/-- A compiler that is clean leaves the directory where it is, and what stands under the names. -/
theorem Clean.sameUnder {m : Machine} (hn : ∀ q ∈ programs, IsFileName q.name) (hp : p ∈ programs)
    (hclean : Clean tools profile installDir programs p m) (hname : Tree.Nameable installDir p.name) (hd : m.Reaches installDir d) :
    SameUnder installDir d (Named programs) m (endOf (tools.compile p.name profile m)) := by
  have hsame : ∀ q ∈ programs, Tree.Nameable installDir q.name →
      (endOf (tools.compile p.name profile m)).Reaches installDir d ∧
        (endOf (tools.compile p.name profile m)).tree.node? (q.name :: d) = m.tree.node? (q.name :: d) := by
    intro q hq hqname
    have hseek : (endOf (tools.compile p.name profile m)).seek installDir q.name = .ok (m.tree.under d q.name) :=
      (hclean.keeps q hq).trans ((Machine.seek_eq_ok (hn q hq)).2 ⟨hqname, d, hd, rfl⟩)
    obtain ⟨-, hd', hnode⟩ := Machine.of_seek (hn q hq) hseek (Tree.place_under _ _ _)
    exact ⟨hd', hnode.trans (Tree.node?_under _ _ _)⟩
  refine ⟨(hsame p hp hname).1, ?_⟩
  rintro n ⟨q, hq, rfl⟩ hqname
  exact (hsame q hq hqname).2

theorem heldNode_isDirectory (o : Option Node) : (Install.heldNode o).isDirectory = false := by
  rcases o with _ | ⟨_ | _ | _ | _⟩ <;> rfl

theorem heldNode_isLink (o : Option Node) : (Install.heldNode o).isLink = false := by
  rcases o with _ | ⟨_ | _ | _ | _⟩ <;> rfl

/-- What is installed where hold was taken carries the file, which comes from somewhere else. -/
theorem carries_installed {place origin : Place} (o : Option Node) (f : File) (h : origin ≠ place) :
    Carries o f (some (Install.installed place origin f (Install.heldNode o))) := by
  intro hdev
  rcases o with _ | ⟨g | _ | _ | _⟩
  · exact ⟨_, rfl, if_neg (Ne.symm h), rfl⟩
  · exact ⟨_, rfl, if_neg (Ne.symm h), rfl⟩
  · exact ⟨_, rfl, if_neg (Ne.symm h), rfl⟩
  · exact ⟨_, rfl, if_neg (Ne.symm h), rfl⟩
  · exact absurd rfl hdev

/-- The assumptions under which a program is staged among others: they all have names, it is one of them, and where it is compiled the
compiler is clean. -/
structure Fit (tools : Toolchain) (profile : Profile) (installDir : Path) (programs : List Program) (p : Program) (s : Session) :
    Prop where
  names : ∀ q ∈ programs, IsFileName q.name
  mem : p ∈ programs
  clean : ∀ s₁, hold profile installDir p s = .ok () s₁ → Clean tools profile installDir programs p s₁.machine

/-- After taking hold, the program is compiled with everything under the names as it was. -/
theorem Fit.compile {binary : EStateM.Result Failure Session Path} (hfit : Fit tools profile installDir programs p s)
    (h : hold profile installDir p s = .ok () s₁) (hc : compile tools profile p s₁ = binary) :
    (endOf binary).calls = s.calls ++ [.compile p.name profile] ∧ ∃ d, s.machine.Reaches installDir d ∧
      SameUnder installDir d (Named programs) s₁.machine (endOf binary).machine := by
  obtain ⟨hcalls, hname, d, hd, hd₁, -, -, -⟩ := hold_ok (hfit.names p hfit.mem) h
  rw [← hc, endOf_compile, hcalls]
  exact ⟨rfl, d, hd, (hfit.clean s₁ h).sameUnder hfit.names hfit.mem hname hd₁⟩

/-- A program that is staged has been compiled to a file, which is under its name now. Nothing else under the programs' names has changed,
and nothing but the compilation has been asked for. -/
theorem stageProgram_ok {i : Installed} (hfit : Fit tools profile installDir programs p s)
    (h : stageProgram tools profile installDir p s = .ok i s') :
    i = ⟨p.name, installDir.join ⟨p.name⟩⟩ ∧ s'.calls = s.calls ++ [.compile p.name profile] ∧ Tree.Nameable installDir p.name ∧
      ∃ d f, s.machine.Reaches installDir d ∧ CompiledTo tools profile installDir s p f ∧
        SameUnder installDir d (fun n => Named programs n ∧ n ≠ p.name) s.machine s'.machine ∧
        Carries (s.machine.tree.node? (p.name :: d)) f (s'.machine.tree.node? (p.name :: d)) := by
  have hn := hfit.names p hfit.mem
  rw [stageProgram_eq] at h
  obtain ⟨_, s₁, hhold, h⟩ := bind_eq_ok.1 h
  obtain ⟨binary, s₂, hcomp, hput⟩ := bind_eq_ok.1 h
  obtain ⟨-, hname, d, hd, hd₁, ha₁, -, hnode₁⟩ := hold_ok hn hhold
  obtain ⟨hcalls, d', hd', hsame₂⟩ := hfit.compile hhold hcomp
  cases hd.unique hd'
  rw [endOf_ok] at hcalls hsame₂
  have hnode₂ := (hsame₂.2 p.name ⟨p, hfit.mem, rfl⟩ hname).trans hnode₁
  rcases putIn_cases hn hname hsame₂.1 hnode₂ (heldNode_isDirectory _) (heldNode_isLink _) binary with
    ⟨-, e, he⟩ | ⟨origin, f, s'', hs, hok, hcalls', hd₃, ha₃, hnode₃⟩
  · rw [he] at hput
    cases hput
  · rw [hok] at hput
    cases hput
    refine ⟨rfl, hcalls'.trans hcalls, hname, d, f, hd, ⟨s₁, binary, s₂, origin, hhold, hcomp, hs⟩, ?_, ?_⟩
    · have h₁ := (SameUnder.of_agree ha₁ hd₁).mono (fun n => Named programs n ∧ n ≠ p.name) fun _ h => h.2
      have h₂ := hsame₂.mono (fun n => Named programs n ∧ n ≠ p.name) fun _ h => h.1
      exact (h₁.trans h₂).trans ((SameUnder.of_agree ha₃ hd₃).mono _ fun _ h => h.2)
    · have hseek : s₂.machine.seek installDir p.name = .ok (s₂.machine.tree.under d p.name) :=
        (Machine.seek_eq_ok hn).2 ⟨hname, d, hsame₂.1, rfl⟩
      have hapart := (hfit.clean s₁ hhold).apart binary s₂.machine (compile_ok hcomp).1 p hfit.mem _ origin _ hseek hs
      rw [Tree.place_under] at hapart
      rw [hnode₃]
      exact carries_installed _ f hapart

/-- Where the staging of a program fails, its install path could not be taken hold of; or it could, and then the compilation was asked for
and everything under the names is as it was after taking hold. -/
theorem stageProgram_error {e : Failure} (hfit : Fit tools profile installDir programs p s)
    (h : stageProgram tools profile installDir p s = .error e s') :
    hold profile installDir p s = .error e s' ∨
      ∃ s₁, hold profile installDir p s = .ok () s₁ ∧ s'.calls = s.calls ++ [.compile p.name profile] ∧
        ∃ d, s.machine.Reaches installDir d ∧ SameUnder installDir d (Named programs) s₁.machine s'.machine := by
  have hn := hfit.names p hfit.mem
  rw [stageProgram_eq, bind_eq_error] at h
  rcases h with hhold | ⟨_, s₁, hhold, h⟩
  · exact Or.inl hhold
  · refine Or.inr ⟨s₁, hhold, ?_⟩
    rcases bind_eq_error.1 h with hcomp | ⟨binary, s₂, hcomp, hput⟩
    · exact hfit.compile hhold hcomp
    · obtain ⟨-, hname, d, hd, -, -, -, hnode₁⟩ := hold_ok hn hhold
      obtain ⟨hcalls, d', hd', hsame₂⟩ := hfit.compile hhold hcomp
      cases hd.unique hd'
      rw [endOf_ok] at hcalls hsame₂
      have hnode₂ := (hsame₂.2 p.name ⟨p, hfit.mem, rfl⟩ hname).trans hnode₁
      rcases putIn_cases hn hname hsame₂.1 hnode₂ (heldNode_isDirectory _) (heldNode_isLink _) binary with
        ⟨-, e', he⟩ | ⟨origin, f, s'', -, hok, -⟩
      · rw [he] at hput
        cases hput
        exact ⟨hcalls, d, hd, hsame₂⟩
      · rw [hok] at hput
        cases hput

end Staging

namespace Project

/-- What a staging of a project can come to: its programs are not all installed, or there are none, or they are and cannot be put on record, or
they are and it is told where they have been. -/
inductive StageOutcome (p : Project) (tools : Toolchain) (s : Session) : EStateM.Result Failure Session StageReport → Prop where
  | failed {e : Failure} {s₁ : Session} :
      Staging.rebuild tools p.profile p.config.userspace.sourceDir p.config.userspace.installDir s = .error e s₁ →
      StageOutcome p tools s (.error e s₁)
  | idle {r : StageReport} {s₁ : Session} :
      Staging.rebuild tools p.profile p.config.userspace.sourceDir p.config.userspace.installDir s = .ok r s₁ → r.installed = [] →
      StageOutcome p tools s (.ok r s₁)
  | unrecorded {r : StageReport} {s₁ : Session} {e : Failure} {m : Machine} :
      Staging.rebuild tools p.profile p.config.userspace.sourceDir p.config.userspace.installDir s = .ok r s₁ → r.installed ≠ [] →
      Manifest.write p.stateDir r s₁.machine = .error e m → StageOutcome p tools s (.error e { s₁ with machine := m })
  | recorded {r : StageReport} {s₁ s' : Session} {path : Path} {m : Machine} :
      Staging.rebuild tools p.profile p.config.userspace.sourceDir p.config.userspace.installDir s = .ok r s₁ → r.installed ≠ [] →
      Manifest.write p.stateDir r s₁.machine = .ok path m → Session.Alike { s₁ with machine := m } s' → StageOutcome p tools s (.ok r s')

theorem stage_outcome (p : Project) (tools : Toolchain) (s : Session) : StageOutcome p tools s (p.stage tools s) := by
  rw [stage]
  dsimp only
  cases hrebuild : Staging.rebuild tools p.profile p.config.userspace.sourceDir p.config.userspace.installDir s with
  | error e s₁ =>
    rw [bind_of_error hrebuild]
    exact .failed hrebuild
  | ok r s₁ =>
    rw [bind_of_ok hrebuild]
    split
    · next hne =>
      cases hwrite : Manifest.write p.stateDir r s₁.machine with
      | error e m =>
        rw [bind_of_error (Act.toRun_of_error hwrite)]
        exact .unrecorded hrebuild hne hwrite
      | ok path m =>
        rw [bind_of_ok (Act.toRun_of_ok hwrite)]
        obtain ⟨s', hprint, halike⟩ := Act.print_toRun s!"[stage] manifest: {path.text}" { s₁ with machine := m }
        exact bind_of_ok hprint ▸ .recorded hrebuild hne hwrite halike
    · next hnone => exact .idle hrebuild (Classical.not_not.1 hnone)

end Project

end BootDisk
