import BootDisk.Proofs.Discovery
import BootDisk.Proofs.Staging.Programs

/-!
# What a staging that ends well has installed

A staging finds the programs, makes the install directory, stages the programs one after the other and strips them together. The last of
these statements puts the parts together for a staging that ends well. Of the tools it is assumed that compiling leaves the install paths
alone, and that stripping leaves a file where it was given one (`Staging.Spares`).
-/

namespace BootDisk

namespace Staging

/-! ## The parts -/

/-- Makes the install directory. -/
def ready (installDir : Path) : Run Unit :=
  during (.creatingInstallDir installDir) (Act.files fun cwd => FileCall.makeDirectories cwd installDir).toRun

/-- Builds and installs programs that were found. -/
def stageAll (tools : Toolchain) (profile : Profile) (installDir : Path) (programs : List Program) : Run StageReport := do
  ready installDir
  let installed ← programs.mapM (stageProgram tools profile installDir)
  let stripped ← strip tools installed
  Act.print s!"[stage] installed {installed.length} binaries into {installDir.text}"
  return ⟨profile, installed, stripped⟩

variable {tools : Toolchain} {profile : Profile} {sourceDir installDir : Path} {programs : List Program}
variable {s s₁ s₂ s' : Session}

/-- A staging that finds programs builds and installs them. -/
theorem rebuild_of_found (tools : Toolchain) (profile : Profile) (installDir : Path)
    (hdisc : Program.discover sourceDir s.machine = .ok programs s.machine) (hne : programs ≠ []) :
    rebuild tools profile sourceDir installDir s = stageAll tools profile installDir programs s :=
  (bind_of_ok (Act.toRun_of_ok hdisc)).trans (congrFun (if_neg hne) s)

/-- A staging that finds no programs says so, and does nothing. -/
theorem rebuild_of_none (tools : Toolchain) (profile : Profile) (installDir : Path)
    (hdisc : Program.discover sourceDir s.machine = .ok [] s.machine) :
    ∃ s', (Act.print s!"[stage] no binaries under {sourceDir.text}").toRun s = .ok () s' ∧
      rebuild tools profile sourceDir installDir s = .ok ⟨profile, [], false⟩ s' ∧ s.Alike s' := by
  obtain ⟨s', hprint, ha⟩ := Act.print_toRun s!"[stage] no binaries under {sourceDir.text}" s
  exact ⟨s', hprint, (bind_of_ok (Act.toRun_of_ok hdisc)).trans ((congrFun (if_pos rfl) s).trans (bind_of_ok hprint)), ha⟩

/-- A staging whose search fails does nothing. -/
theorem rebuild_of_unread {e : Failure} {m : Machine} (tools : Toolchain) (profile : Profile) (installDir : Path)
    (hdisc : Program.discover sourceDir s.machine = .error e m) : rebuild tools profile sourceDir installDir s = .error e s := by
  have hm := Program.endOf_discover sourceDir s.machine
  rw [hdisc, endOf_error] at hm
  subst hm
  exact bind_of_error (Act.toRun_of_error hdisc)

/-- Making the install directory calls nothing. -/
theorem calls_of_ready (h : ready installDir s = .ok () s₁) : s₁.calls = s.calls := by
  obtain ⟨m, -, rfl⟩ := Act.toRun_eq_ok.1 (during_eq_ok.1 h)
  rfl

/-- Stripping is told and asked for where the host can, and only there. -/
theorem strip_ok {installed : List Installed} {stripped : Bool} (h : strip tools installed s = .ok stripped s₁) :
    stripped = tools.matchesHost ∧
      ((tools.matchesHost = false ∧ s.Alike s₁) ∨
        (tools.matchesHost = true ∧ s₁.calls = s.calls ++ [.strip (installed.map Installed.path)] ∧
          ∃ m, (Act.print s!"[stage] stripping {(installed.map Installed.path).length} binaries") s.machine = .ok () m ∧
            tools.strip (installed.map Installed.path) m = .ok () s₁.machine)) := by
  unfold strip at h
  split at h
  · next hhost =>
    obtain ⟨_, s₀, hprint, h⟩ := bind_eq_ok.1 h
    obtain ⟨_, s₂, hcall, h⟩ := bind_eq_ok.1 h
    cases h
    obtain ⟨m, hm, rfl⟩ := Act.toRun_eq_ok.1 hprint
    obtain ⟨m', hm', rfl⟩ := Run.call_eq_ok.1 hcall
    exact ⟨hhost.symm, Or.inr ⟨hhost, rfl, m, hm, hm'⟩⟩
  · next hhost =>
    obtain ⟨s₀, hs₀, ha⟩ := Act.warn_toRun "[stage] host architecture differs from target; leaving binaries unstripped" s
    obtain ⟨_, s₂, hwarn, h⟩ := bind_eq_ok.1 h
    cases hs₀.symm.trans hwarn
    cases h
    exact ⟨(Bool.eq_false_iff.2 hhost).symm, Or.inl ⟨Bool.eq_false_iff.2 hhost, ha⟩⟩

/-- Where the host can, stripping is what the tool makes of it. -/
theorem endOf_strip_of_host {installed : List Installed} (hhost : tools.matchesHost = true)
    (hprint : (Act.print s!"[stage] stripping {(installed.map Installed.path).length} binaries").toRun s = .ok () s₁) :
    endOf (strip tools installed s) =
      endOf (Run.call (.strip (installed.map Installed.path)) (tools.strip (installed.map Installed.path)) s₁) := by
  have hstrip : strip tools installed s =
      (Run.call (.strip (installed.map Installed.path)) (tools.strip (installed.map Installed.path)) >>= fun _ => pure true) s₁ :=
    (congrFun (if_pos hhost) s).trans (bind_of_ok hprint)
  rw [hstrip]
  cases h : Run.call (.strip (installed.map Installed.path)) (tools.strip (installed.map Installed.path)) s₁ with
  | error e s₂ => rw [bind_of_error h]; rfl
  | ok _ s₂ => rw [bind_of_ok h]; rfl

/-- All that a staging that ends well can have done. -/
theorem rebuild_ok {report : StageReport} (h : rebuild tools profile sourceDir installDir s = .ok report s') :
    ∃ programs, Program.discover sourceDir s.machine = .ok programs s.machine ∧
      ((programs = [] ∧ report = ⟨profile, [], false⟩ ∧ s.Alike s') ∨
        (programs ≠ [] ∧ ∃ s₁ installed s₂ stripped s₃, ready installDir s = .ok () s₁ ∧
          programs.mapM (stageProgram tools profile installDir) s₁ = .ok installed s₂ ∧ strip tools installed s₂ = .ok stripped s₃ ∧
          s₃.Alike s' ∧ report = ⟨profile, installed, stripped⟩)) := by
  obtain ⟨programs, s₀, hdisc, h⟩ := bind_eq_ok.1 h
  obtain ⟨m, hm, rfl⟩ := Act.toRun_eq_ok.1 hdisc
  cases Program.machine_of_discover hm
  refine ⟨programs, hm, ?_⟩
  split at h
  · next hnil =>
    obtain ⟨_, s₁, hprint, h⟩ := bind_eq_ok.1 h
    obtain ⟨s₁', hs₁', ha⟩ := Act.print_toRun s!"[stage] no binaries under {sourceDir.text}" s
    cases hs₁'.symm.trans hprint
    cases h
    exact Or.inl ⟨hnil, rfl, ha⟩
  · next hne =>
    obtain ⟨_, s₁, hready, h⟩ := bind_eq_ok.1 h
    obtain ⟨installed, s₂, hmap, h⟩ := bind_eq_ok.1 h
    obtain ⟨stripped, s₃, hstrip, h⟩ := bind_eq_ok.1 h
    obtain ⟨_, s₄, hprint, h⟩ := bind_eq_ok.1 h
    obtain ⟨s₄', hs₄', ha⟩ :=
      Act.print_toRun s!"[stage] installed {installed.length} binaries into {installDir.text}" s₃
    cases hs₄'.symm.trans hprint
    cases h
    exact Or.inr ⟨hne, s₁, installed, s₂, stripped, s₃, hready, hmap, hstrip, ha, rfl⟩

/-! ## The whole -/

/-- The install paths of programs. -/
def installPaths (installDir : Path) (programs : List Program) : List Path :=
  programs.map fun p => installDir.join ⟨p.name⟩

/-- The path names a regular file on the machine, and no link to one. -/
def IsFileAt (m : Machine) (path : Path) (place : Place) (f : File) : Prop :=
  m.tree.entry m.cwd path .never = .ok (place, .file f)

/-- Where a staging calls the tools, the compiler is clean for all the programs it has found; and if stripping ends well, it leaves a
regular file at each path that it was given and that named one. -/
structure Spares (tools : Toolchain) (profile : Profile) (sourceDir installDir : Path) (s : Session) : Prop where
  compile : ∀ programs s₁, Program.discover sourceDir s.machine = .ok programs s.machine → ready installDir s = .ok () s₁ →
    AllClean tools profile installDir programs s₁ programs
  strip : ∀ done s₁ s₂ m m', Program.discover sourceDir s.machine = .ok (done.map Prod.fst) s.machine →
    ready installDir s = .ok () s₁ → Staged tools profile installDir s₁ done s₂ →
    Act.print s!"[stage] stripping {(installPaths installDir (done.map Prod.fst)).length} binaries" s₂.machine = .ok () m →
    tools.strip (installPaths installDir (done.map Prod.fst)) m = .ok () m' →
    ∀ path ∈ installPaths installDir (done.map Prod.fst), (∃ place f, IsFileAt m path place f) → ∃ place f, IsFileAt m' path place f

/-- Where programs have been staged, the install directory's path leads down to a place. -/
theorem Staged.reaches {done : List (Program × File)} (h : Staged tools profile installDir s done s')
    (hn : ∀ q ∈ done.map Prod.fst, IsFileName q.name) (hne : done ≠ []) : ∃ d, s.machine.Reaches installDir d := by
  cases h with
  | nil _ => exact absurd rfl hne
  | @cons _ _ _ p f _ _ _ hf _ =>
    obtain ⟨s₂, -, -, -, hhold, -⟩ := hf
    obtain ⟨-, -, d, hd, -⟩ := hold_ok (hn p List.mem_cons_self) hhold
    exact ⟨d, hd⟩

/-- A file under a name is what its path names. -/
theorem isFileAt_of_node {m : Machine} {n : String} {d : Place} {f : File} (hn : IsFileName n) (hname : Tree.Nameable installDir n)
    (hd : m.Reaches installDir d) (h : m.tree.node? (n :: d) = some (.file f)) : IsFileAt m (installDir.join ⟨n⟩) (n :: d) f :=
  Tree.entry_eq_ok.2 ⟨false, (Machine.seek_eq_ok hn).2 ⟨hname, d, hd, (Tree.under_of_some h).symm⟩, nofun⟩

theorem isFileAt_of_alike {path : Path} {place : Place} {f : File} (ha : s.Alike s₁) (h : IsFileAt s.machine path place f) :
    IsFileAt s₁.machine path place f := by
  rw [IsFileAt, ha.1, ha.2.1]
  exact h

/-- A staging that ends well. It has asked for the compilation of each program it has found, in the order of their names, and then, if
there are any and the host can, for all of them to be stripped, in the same order; and it reports just that. Each install path names a
regular file then, and no link, unless a device was there; and if nothing was stripped, that file has the bytes of the one that the program
was compiled to, as they were when the compiler was done, and its permission bits with those that let everyone run it. -/
theorem rebuild_installs (tools : Toolchain) (profile : Profile) (sourceDir installDir : Path) (s : Session) (report : StageReport)
    (s' : Session) (hw : s.machine.tree.WellNamed) (hspare : Spares tools profile sourceDir installDir s)
    (h : rebuild tools profile sourceDir installDir s = .ok report s') :
    ∃ programs, Program.discover sourceDir s.machine = .ok programs s.machine ∧ (programs.Pairwise fun a b => a.name < b.name) ∧
      s'.calls = s.calls ++ compilations profile programs ++
        (if report.stripped then [.strip (installPaths installDir programs)] else []) ∧
      report.profile = profile ∧ report.installed = programs.map (fun p => ⟨p.name, installDir.join ⟨p.name⟩⟩) ∧
      (report.stripped = true ↔ programs ≠ [] ∧ tools.matchesHost = true) ∧
      (programs ≠ [] → ∃ s₁ built s₂, ready installDir s = .ok () s₁ ∧ built.map Prod.fst = programs ∧
        Staged tools profile installDir s₁ built s₂ ∧
        ∀ p f, (p, f) ∈ built → (∀ place, s₁.machine.seek installDir p.name ≠ .ok (.found place .device false)) →
          ∃ place g, IsFileAt s'.machine (installDir.join ⟨p.name⟩) place g ∧
            (report.stripped = false → g.content = f.content ∧ g.mode = Nat.lor f.mode Install.executeBits)) := by
  obtain ⟨programs, hdisc, ⟨rfl, rfl, ha⟩ | ⟨hne, s₁, installed, s₂, stripped, s₃, hready, hmap, hstrip, ha, rfl⟩⟩ := rebuild_ok h
  · exact ⟨[], hdisc, .nil, by simp [ha.2.2, compilations], rfl, rfl, by simp, fun h => absurd rfl h⟩
  obtain ⟨hn, hsorted⟩ := Program.discover_ok hw hdisc
  have hclean := hspare.compile programs s₁ hdisc hready
  obtain ⟨rfl, built, hbuilt, hstaged⟩ := staged_of_mapM hn (fun _ hq => hq) hclean hmap
  have hdistinct := hsorted.imp fun h => String.ne_of_lt h
  subst hbuilt
  obtain ⟨d, hd⟩ := hstaged.reaches hn fun hnil => hne (by rw [hnil]; rfl)
  obtain ⟨hcalls, hsame, hcarries⟩ := hstaged.effect hn (fun _ hq => hq) hclean (List.append_nil _).symm hdistinct hd
  have hpaths : List.map Installed.path ((built.map Prod.fst).map fun q => ⟨q.name, installDir.join ⟨q.name⟩⟩) =
      installPaths installDir (built.map Prod.fst) := by
    rw [List.map_map]
    rfl
  obtain ⟨rfl, hstripped⟩ := strip_ok hstrip
  rw [hpaths] at hstripped
  rw [calls_of_ready hready] at hcalls
  refine ⟨built.map Prod.fst, hdisc, hsorted, ?_, rfl, rfl, by simp [hne], fun _ => ⟨s₁, built, s₂, hready, rfl, hstaged, ?_⟩⟩
  · rw [ha.2.2]
    rcases hstripped with ⟨hhost, ha'⟩ | ⟨hhost, hc, -⟩
    · simp [hhost, ha'.2.2, hcalls]
    · simp [hhost, hc, hcalls]
  · intro p f hpf hdev
    obtain ⟨hname, hcarried⟩ := hcarries (p, f) hpf
    have hpn := hn p (List.mem_map_of_mem hpf)
    obtain ⟨g, hg, hcontent, hmode⟩ := hcarried (by
      intro hnode
      refine hdev (p.name :: d) ((Machine.seek_eq_ok hpn).2 ⟨hname, d, hd, ?_⟩)
      rw [Tree.under_of_some hnode])
    have hfile := isFileAt_of_node hpn hname hsame.1 hg
    rcases hstripped with ⟨hhost, ha'⟩ | ⟨hhost, -, m, hprint, htool⟩
    · exact ⟨_, g, isFileAt_of_alike (ha'.trans ha) hfile, fun _ => ⟨hcontent, hmode⟩⟩
    · have hfile' : IsFileAt m (installDir.join ⟨p.name⟩) (p.name :: d) g := by
        cases hprint
        exact hfile
      obtain ⟨place, g', hg'⟩ := hspare.strip built s₁ s₂ m s₃.machine hdisc hready hstaged hprint htool (installDir.join ⟨p.name⟩)
        (List.mem_map_of_mem (List.mem_map_of_mem hpf)) ⟨_, g, hfile'⟩
      refine ⟨place, g', isFileAt_of_alike ha hg', fun hfalse => ?_⟩
      rw [hhost] at hfalse
      cases hfalse

/-- A session on a machine where there is one program to stage, and something built. -/
def sample : Session where
  machine :=
    { tree := ⟨[(["src"], .directory), (["a.rs", "src"], .file (.new newFileMode)),
        (["built"], .file ⟨.ofList [1, 2], newFileMode, 0⟩)]⟩,
      cwd := [], searchPath := "", home := ⟨""⟩, clock := 0 }

theorem wellNamed_sample : sample.machine.tree.WellNamed := by decide

theorem discover_sample {programs : List Program} {m : Machine} (h : Program.discover ⟨"src"⟩ sample.machine = .ok programs m) :
    programs = [⟨"a", ⟨"src/a.rs"⟩⟩] :=
  eq_of_valueOf h (by decide +kernel)

/-- The session in which a program is compiled, if it is the first to be staged. -/
def firstHeld (installDir : Path) (p : Program) (s : Session) : Session :=
  endOf (hold .release installDir p (endOf (ready installDir s)))

/-- Who does nothing spares the install path of the only program, if what is said to be built is at another place. -/
theorem spares_idle {blob : Path} {p : Program} (q origin : Place)
    (hdisc : ∀ programs m, Program.discover sourceDir s.machine = .ok programs m → programs = [p])
    (hseek : ((firstHeld installDir p s).machine.seek installDir p.name).toOption.map Arrival.place = some q)
    (hentry : ((firstHeld installDir p s).machine.tree.entry (firstHeld installDir p s).machine.cwd blob .through).toOption.map Prod.fst =
      some origin) (hne : origin ≠ q) : Spares (.idle blob) .release sourceDir installDir s := by
  constructor
  · intro programs s₁ hprograms hready done p' rest s₂ s₃ htodo hstaged hhold
    cases hdisc programs _ hprograms
    rcases done with _ | ⟨pf, done⟩
    · cases htodo
      cases hstaged
      have hheld : s₃ = firstHeld installDir p s := by
        rw [firstHeld, hready, endOf_ok, hhold, endOf_ok]
      subst hheld
      refine ⟨fun _ _ => rfl, ?_⟩
      intro binary m' hcomp q' hq a place node ha he
      cases hcomp
      cases List.mem_singleton.1 hq
      rw [ha] at hseek
      rw [he] at hentry
      have hplace : a.place = q := Option.some.inj hseek
      have horigin : place = origin := Option.some.inj hentry
      rwa [hplace, horigin]
    · exact absurd (congrArg List.length htodo) (by simp)
  · intro done s₁ s₂ m m' _ _ _ _ htool path _ h
    cases htool
    exact h

/-- Staging the program of the sample ends well, and its compilation and then the stripping have been asked for. -/
theorem rebuild_installs_sample :
    sample.machine.tree.WellNamed ∧ Spares (.idle ⟨"built"⟩) .release ⟨"src"⟩ ⟨"inst"⟩ sample ∧
      ∃ report s', rebuild (.idle ⟨"built"⟩) .release ⟨"src"⟩ ⟨"inst"⟩ sample = .ok report s' ∧
        report.installed = [⟨"a", ⟨"inst/a"⟩⟩] ∧ s'.calls = [.compile "a" .release, .strip [⟨"inst/a"⟩]] := by
  have hspares : Spares (.idle ⟨"built"⟩) .release ⟨"src"⟩ ⟨"inst"⟩ sample :=
    spares_idle ["a", "inst"] ["built"] (fun _ _ => discover_sample) (by decide +kernel) (by decide +kernel) (by decide)
  have hended : endedWell (rebuild (.idle ⟨"built"⟩) .release ⟨"src"⟩ ⟨"inst"⟩ sample) = true := by decide +kernel
  obtain ⟨report, s', h⟩ := endedWell_iff.1 hended
  obtain ⟨programs, hdisc, -, hcalls, -, hinstalled, hstripped, -⟩ :=
    rebuild_installs (.idle ⟨"built"⟩) .release ⟨"src"⟩ ⟨"inst"⟩ sample report s' wellNamed_sample hspares h
  cases discover_sample hdisc
  rw [hstripped.2 ⟨List.cons_ne_nil _ _, rfl⟩] at hcalls
  have hpath : (Path.mk "inst").join ⟨"a"⟩ = ⟨"inst/a"⟩ := by decide +kernel
  refine ⟨wellNamed_sample, hspares, report, s', h, ?_, ?_⟩
  · rw [hinstalled, List.map_singleton, hpath]
  · rw [hcalls, installPaths, List.map_singleton, hpath]
    rfl

/-! ### A device at an install path -/

/-- A session on a machine where there is one program to stage, of the name of a device, and something built. -/
def sampleDevice : Session where
  machine :=
    { tree := ⟨[(["src"], .directory), (["null.rs", "src"], .file (.new newFileMode)), (["dev"], .directory), (["null", "dev"], .device),
        (["built"], .file ⟨.ofList [1, 2], newFileMode, 0⟩)]⟩,
      cwd := [], searchPath := "", home := ⟨""⟩, clock := 0 }

/-- A staging that ends well can leave a device at an install path, the one that was there: what is installed is written to it, and it
stays. -/
theorem rebuild_onto_device :
    sampleDevice.machine.tree.WellNamed ∧ Spares (.idle ⟨"built"⟩) .release ⟨"src"⟩ ⟨"dev"⟩ sampleDevice ∧
      ∃ report s', rebuild (.idle ⟨"built"⟩) .release ⟨"src"⟩ ⟨"dev"⟩ sampleDevice = .ok report s' ∧
        report.installed.map Installed.path = [⟨"dev/null"⟩] ∧ ¬ ∃ place f, IsFileAt s'.machine ⟨"dev/null"⟩ place f := by
  have hfound : valueOf (Program.discover ⟨"src"⟩ sampleDevice.machine) = some [⟨"null", ⟨"src/null.rs"⟩⟩] := by decide +kernel
  refine ⟨by decide, spares_idle ["null", "dev"] ["built"] (fun _ _ h => eq_of_valueOf h hfound) (by decide +kernel) (by decide +kernel)
    (by decide), ?_⟩
  have hpaths : (valueOf (rebuild (.idle ⟨"built"⟩) .release ⟨"src"⟩ ⟨"dev"⟩ sampleDevice)).map
      (fun report => report.installed.map Installed.path) = some [⟨"dev/null"⟩] := by decide +kernel
  have hleft : let m := (endOf (rebuild (.idle ⟨"built"⟩) .release ⟨"src"⟩ ⟨"dev"⟩ sampleDevice)).machine
      (m.tree.entry m.cwd ⟨"dev/null"⟩ .never).toOption.map Prod.snd = some .device := by decide +kernel
  obtain ⟨report, h, hinstalled⟩ := exists_of_valueOf hpaths
  refine ⟨report, _, h, hinstalled, ?_⟩
  rintro ⟨place, f, hfile⟩
  dsimp only at hleft
  rw [hfile] at hleft
  cases hleft

end Staging

end BootDisk
