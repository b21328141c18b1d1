import BootDisk.Proofs.Container
import BootDisk.Proofs.FileTree.Writing
import BootDisk.Proofs.Run.Loading
import BootDisk.Proofs.Staging.Confined

/-!
# Where programs are installed over what they are built as

The compiler may leave its outputs where the programs are installed. All that is assumed here is that the compilation of a program writes
that program's own artifact, wherever it is, and nothing else (`Toolchain.WritesOwn`). A staging that ends well is told program by program
(`Staging.Copied`), with the place that the binary was copied from and the place that it was copied to. Where these are one place, the file
is emptied before it is read, and what is installed is empty (`Staging.rebuild_aliased`).
-/

namespace BootDisk

/-- Compiling a program leaves everything as it is but that program's own artifact, which is a file then that its path leads to, and adds at
most directories. -/
structure Toolchain.WritesOwn (tools : Toolchain) (profile : Profile) (own : String → Path) : Prop where
  cwd : ∀ n m, (endOf (tools.compile n profile m)).cwd = m.cwd
  tree : ∀ n m q, (endOf (tools.compile n profile m)).tree.node? q = m.tree.node? q ∨
    (m.tree.node? q = none ∧ (endOf (tools.compile n profile m)).tree.node? q = some .directory) ∨
      ∃ g, (endOf (tools.compile n profile m)).file? (own n) = some (q, g)

/-- A toolchain that compiles a program by writing these bytes to its artifact, and does nothing else. -/
def Toolchain.writing (own : String → Path) (content : Content) (matchesHost : Bool) : Toolchain :=
  { Toolchain.idle ⟨""⟩ with
    compile := fun n _ => Act.files (fun cwd => FileCall.writeAll cwd (own n) content) >>= fun _ => pure (own n)
    matchesHost }

theorem Toolchain.writesOwn_writing (own : String → Path) (content : Content) (matchesHost : Bool) (profile : Profile) :
    (Toolchain.writing own content matchesHost).WritesOwn profile own := by
  have hend (n : String) (m : Machine) : endOf ((Toolchain.writing own content matchesHost).compile n profile m) =
      { m with tree := endOf (FileCall.writeAll m.cwd (own n) content m.tree) } :=
    (endOf_bind_pure _ _ _).trans (Act.endOf_files _ m)
  refine ⟨fun n m => by rw [hend], fun n m q => ?_⟩
  rw [hend]
  cases hwrite : FileCall.writeAll m.cwd (own n) content m.tree with
  | error e t =>
    obtain rfl := FileCall.writeAll_error hwrite
    exact Or.inl rfl
  | ok _ t =>
    obtain ⟨q', -, hagree, ⟨g, -, hfile⟩ | ⟨rfl, -⟩⟩ := FileCall.writeAll_ok hwrite
    · by_cases hq : q = q'
      · subst hq
        exact Or.inr (Or.inr ⟨g, Machine.file?_eq_some.2 hfile⟩)
      · exact Or.inl (hagree q hq)
    · exact Or.inl rfl

namespace Staging

/-- How a program's binary came to its install path: the session in which the program had been compiled, the place and the file that the
path of the binary led to then, and the place that it was copied to. -/
structure Copy where
  program : Program
  compiled : Session
  origin : Place
  file : File
  place : Place

/-- The program is staged by this copy, from a session to another. -/
def Copy.Made (tools : Toolchain) (profile : Profile) (installDir : Path) (c : Copy) (s s' : Session) : Prop :=
  ∃ s₁ binary a i, hold profile installDir c.program s = .ok () s₁ ∧ compile tools profile c.program s₁ = .ok binary c.compiled ∧
    c.compiled.machine.file? binary = some (c.origin, c.file) ∧ c.compiled.machine.seek installDir c.program.name = .ok a ∧
    a.place = c.place ∧ putIn installDir c.program binary c.compiled = .ok i s'

/-- Programs are staged one after the other, from a session to another, each by its copy. -/
inductive Copied (tools : Toolchain) (profile : Profile) (installDir : Path) : Session → List Copy → Session → Prop where
  | nil (s : Session) : Copied tools profile installDir s [] s
  | cons {s s₁ s' : Session} {c : Copy} {rest : List Copy} : c.Made tools profile installDir s s₁ →
      Copied tools profile installDir s₁ rest s' → Copied tools profile installDir s (c :: rest) s'

variable {tools : Toolchain} {profile : Profile} {own : String → Path} {sourceDir installDir : Path} {p : Program}
variable {s s₁ s₂ s' : Session} {c : Copy} {copies before after : List Copy} {d q : Place} {n : String} {g : File}

/-! ## One program -/

/-- A binary is put in at a path that leads somewhere. -/
theorem seek_of_putIn (hn : IsFileName p.name) {binary : Path} {i : Installed} (h : putIn installDir p binary s = .ok i s') :
    ∃ a, s.machine.seek installDir p.name = .ok a := by
  cases hseek : s.machine.seek installDir p.name with
  | ok a => exact ⟨a, rfl⟩
  | error e =>
    have hlost : ∀ a, s.machine.seek installDir p.name ≠ .ok a := by
      rw [hseek]
      nofun
    obtain ⟨e, he⟩ := Install.copy_of_openCreate_error binary (installDir.join ⟨p.name⟩) fun mode => Install.openCreate_of_lost hn mode hlost
    have hcopy := during_of_error (a := .copying binary (installDir.join ⟨p.name⟩))
      (Act.files_of_error (fun cwd => FileCall.copy cwd binary (installDir.join ⟨p.name⟩)) he)
    have hcopyIn : ∃ f, Install.copyIn binary (installDir.join ⟨p.name⟩) s.machine = .error f s.machine :=
      ⟨_, (bind_of_ok (Install.removeLink_of_no_link hn fun _ _ => hlost _)).trans (bind_of_error hcopy)⟩
    obtain ⟨f, hcopyIn⟩ := hcopyIn
    have hput : putIn installDir p binary s = .error f s := bind_of_error (Act.toRun_of_error hcopyIn)
    cases hput.symm.trans h

/-- Where a program's binary is put in after its compilation, the install directory is where it was when hold was taken, and a file or a
device is at the program's place. -/
theorem after_compile (hown : tools.WritesOwn profile own) (hn : IsFileName p.name) {binary : Path} {i : Installed}
    (hhold : hold profile installDir p s = .ok () s₁) (hcomp : compile tools profile p s₁ = .ok binary s₂)
    (hput : putIn installDir p binary s₂ = .ok i s') :
    Tree.Nameable installDir p.name ∧ ∃ d node, s.machine.Reaches installDir d ∧ s₂.machine.Reaches installDir d ∧
      Tree.AgreeOff s.machine.tree s₁.machine.tree (p.name :: d) ∧ s₂.machine.tree.node? (p.name :: d) = some node ∧
      node.isDirectory = false ∧ node.isLink = false := by
  obtain ⟨-, hname, d, hd, hd₁, ha, -, hnode₁⟩ := hold_ok hn hhold
  obtain ⟨htool, -⟩ := compile_ok hcomp
  have hcwd := hown.cwd p.name s₁.machine
  have htree := hown.tree p.name s₁.machine
  rw [htool, endOf_ok] at hcwd htree
  obtain ⟨a, hseek⟩ := seek_of_putIn hn hput
  obtain ⟨-, d', hd', -⟩ := (Machine.seek_eq_ok hn).1 hseek
  have hsame : d' = d := by
    refine hd₁.same (fun q => ?_) (by rw [← hcwd]; exact hd')
    rcases htree q with hq | ⟨hnone, -⟩ | ⟨g, hg⟩
    · exact Or.inl hq
    · exact Or.inr (Or.inl (Tree.isEnd_of_none hnone))
    · exact Or.inr (Or.inr (Tree.isEnd_of_file (Tree.node?_of_entry (Machine.file?_eq_some.1 hg)).1))
  subst hsame
  rcases htree (p.name :: d') with hq | ⟨hnone, -⟩ | ⟨g, hg⟩
  · exact ⟨hname, d', _, hd, hd', ha, hq.trans hnode₁, heldNode_isDirectory _, heldNode_isLink _⟩
  · rw [hnode₁] at hnone
    cases hnone
  · exact ⟨hname, d', _, hd, hd', ha, (Tree.node?_of_entry (Machine.file?_eq_some.1 hg)).1, rfl, rfl⟩

/-- A program that is staged is staged by a copy. -/
theorem exists_made (hown : tools.WritesOwn profile own) (hn : IsFileName p.name) {i : Installed}
    (h : stageProgram tools profile installDir p s = .ok i s') : ∃ c : Copy, c.program = p ∧ c.Made tools profile installDir s s' := by
  rw [stageProgram_eq] at h
  obtain ⟨_, s₁, hhold, h⟩ := bind_eq_ok.1 h
  obtain ⟨binary, s₂, hcomp, hput⟩ := bind_eq_ok.1 h
  obtain ⟨hname, d, node, -, hd₂, -, hnode, hdir, hlink⟩ := after_compile hown hn hhold hcomp hput
  rcases putIn_cases hn hname hd₂ hnode hdir hlink binary with ⟨-, e, he⟩ | ⟨origin, f, s'', hs, -⟩
  · rw [he] at hput
    cases hput
  · exact ⟨⟨p, s₂, origin, f, p.name :: d⟩, rfl, s₁, binary, _, i, hhold, hcomp, Machine.file?_eq_some.2 hs,
      (Machine.seek_eq_ok hn).2 ⟨hname, d, hd₂, rfl⟩, Tree.place_under _ _ _, hput⟩

/-- What staging a program by a copy does: a file that was at the program's place when it had been compiled has the bytes of the binary then,
unless it is the binary, and then it is empty; a device is left. Anything at another place stays, unless the program's artifact has been
written there. -/
structure Copy.Does (own : String → Path) (installDir : Path) (d : Place) (c : Copy) (s s' : Session) : Prop where
  nameable : Tree.Nameable installDir c.program.name
  place : c.place = c.program.name :: d
  reaches : s.machine.Reaches installDir d ∧ s'.machine.Reaches installDir d
  installed : c.compiled.machine.tree.node? c.place ≠ some .device → ∃ g, s'.machine.tree.node? c.place = some (.file g) ∧
    g.content = (if c.place = c.origin then .empty else c.file.content) ∧ g.mode = Nat.lor c.file.mode Install.executeBits
  others : ∀ q, q ≠ c.place → s.machine.tree.node? q ≠ none → (∀ g, c.compiled.machine.file? (own c.program.name) ≠ some (q, g)) →
    s'.machine.tree.node? q = s.machine.tree.node? q

theorem Copy.Made.does (hown : tools.WritesOwn profile own) (hn : IsFileName c.program.name)
    (h : c.Made tools profile installDir s s') : ∃ d, c.Does own installDir d s s' := by
  obtain ⟨s₁, binary, a, i, hhold, hcomp, hfile, hseek, hplace, hput⟩ := h
  obtain ⟨hname, d, node, hd, hd₂, ha, hnode, hdir, hlink⟩ := after_compile hown hn hhold hcomp hput
  obtain ⟨-, d', hd', rfl⟩ := (Machine.seek_eq_ok hn).1 hseek
  cases hd₂.unique hd'
  rw [Tree.place_under] at hplace
  obtain ⟨htool, -⟩ := compile_ok hcomp
  have htree := hown.tree c.program.name s₁.machine
  rw [htool, endOf_ok] at htree
  rcases putIn_cases hn hname hd₂ hnode hdir hlink binary with ⟨-, e, he⟩ | ⟨origin, f, s'', hs, hok, -, hd₃, ha₃, hnode₃⟩
  · rw [he] at hput
    cases hput
  rw [hok] at hput
  cases hput
  cases hfile.symm.trans (Machine.file?_eq_some.2 hs)
  refine ⟨d, hname, hplace.symm, ⟨hd, hd₃⟩, ?_, ?_⟩
  · rw [← hplace, hnode]
    intro hdevice
    cases node with
    | file g => exact ⟨_, hnode₃, rfl, rfl⟩
    | device => exact absurd rfl hdevice
    | directory => cases hdir
    | link target => cases hlink
  · rw [← hplace]
    intro q hq hthere hne
    have hheld := ha q hq
    rcases htree q with hsame | ⟨hnone, -⟩ | ⟨g, hg⟩
    · rw [ha₃ q hq, hsame, hheld]
    · exact absurd (hheld.symm.trans hnone) hthere
    · exact absurd hg (hne g)

/-! ## Programs one after the other -/

/-- Programs that are all staged are staged by copies. -/
theorem copied_of_mapM (hown : tools.WritesOwn profile own) {todo : List Program} (hn : ∀ p ∈ todo, IsFileName p.name)
    {installed : List Installed} (h : todo.mapM (stageProgram tools profile installDir) s = .ok installed s') :
    ∃ copies, copies.map Copy.program = todo ∧ Copied tools profile installDir s copies s' := by
  induction todo generalizing s installed with
  | nil =>
    rw [List.mapM_nil, pure_run] at h
    cases h
    exact ⟨[], rfl, .nil _⟩
  | cons p todo ih =>
    obtain ⟨i, s₁, rest, hp, hrest, -⟩ := mapM_cons_eq_ok.1 h
    obtain ⟨c, rfl, hc⟩ := exists_made hown (hn p List.mem_cons_self) hp
    obtain ⟨copies, rfl, hcopies⟩ := ih (fun q hq => hn q (List.mem_cons_of_mem _ hq)) hrest
    exact ⟨c :: copies, rfl, .cons hc hcopies⟩

/-- A row of copies is those before one of them, that one, and those after it. -/
theorem Copied.split (h : Copied tools profile installDir s (before ++ c :: after) s') :
    ∃ s₁ s₂, Copied tools profile installDir s before s₁ ∧ c.Made tools profile installDir s₁ s₂ ∧
      Copied tools profile installDir s₂ after s' := by
  induction before generalizing s with
  | nil =>
    cases h with
    | cons hc hrest => exact ⟨_, _, .nil _, hc, hrest⟩
  | cons b before ih =>
    cases h with
    | cons hb hrest =>
      obtain ⟨s₁, s₂, hbefore, hc, hafter⟩ := ih hrest
      exact ⟨s₁, s₂, .cons hb hbefore, hc, hafter⟩

/-- A file under a name in the install directory stays while programs of other names are staged, if none of them is built there. -/
theorem Copied.keeps (hown : tools.WritesOwn profile own) (h : Copied tools profile installDir s copies s')
    (hn : ∀ c ∈ copies, IsFileName c.program.name ∧ c.program.name ≠ n)
    (helsewhere : ∀ c ∈ copies, ∀ g, c.compiled.machine.file? (own c.program.name) ≠ some (n :: d, g))
    (hd : s.machine.Reaches installDir d) (hg : s.machine.tree.node? (n :: d) = some (.file g)) :
    s'.machine.Reaches installDir d ∧ s'.machine.tree.node? (n :: d) = some (.file g) := by
  induction h with
  | nil s => exact ⟨hd, hg⟩
  | @cons s s₁ s' c rest hc _ ih =>
    obtain ⟨hcn, hne⟩ := hn c List.mem_cons_self
    obtain ⟨d', hdoes⟩ := hc.does hown hcn
    cases hd.unique hdoes.reaches.1
    have hother : n :: d ≠ c.place := by
      rw [hdoes.place]
      exact fun heq => hne (List.cons.inj heq).1.symm
    have hstays := hdoes.others (n :: d) hother (by rw [hg]; nofun) (helsewhere c List.mem_cons_self)
    exact ih (fun c hc => hn c (List.mem_cons_of_mem _ hc)) (fun c hc => helsewhere c (List.mem_cons_of_mem _ hc)) hdoes.reaches.2
      (hstays.trans hg)

/-- What is installed by a copy is there when all are staged, if no program after it is built there. -/
theorem Copied.installed (hown : tools.WritesOwn profile own) (h : Copied tools profile installDir s (before ++ c :: after) s')
    (hn : ∀ c' ∈ before ++ c :: after, IsFileName c'.program.name)
    (hdistinct : ((before ++ c :: after).map Copy.program).Pairwise fun p q => p.name ≠ q.name)
    (helsewhere : ∀ c' ∈ after, ∀ g, c'.compiled.machine.file? (own c'.program.name) ≠ some (c.place, g))
    (hdevice : c.compiled.machine.tree.node? c.place ≠ some .device) :
    ∃ g, IsFileAt s'.machine (installDir.join ⟨c.program.name⟩) c.place g ∧
      g.content = (if c.place = c.origin then .empty else c.file.content) ∧ g.mode = Nat.lor c.file.mode Install.executeBits := by
  obtain ⟨s₁, s₂, -, hc, hafter⟩ := h.split
  have hcn := hn c (List.mem_append_right _ List.mem_cons_self)
  obtain ⟨d, hdoes⟩ := hc.does hown hcn
  obtain ⟨g, hg, hcontent, hmode⟩ := hdoes.installed hdevice
  have hnames : ∀ c' ∈ after, IsFileName c'.program.name ∧ c'.program.name ≠ c.program.name := by
    intro c' hc'
    rw [List.map_append, List.map_cons, List.pairwise_append] at hdistinct
    exact ⟨hn c' (List.mem_append_right _ (List.mem_cons_of_mem _ hc')),
      ((List.pairwise_cons.1 hdistinct.2.1).1 c'.program (List.mem_map_of_mem hc')).symm⟩
  rw [hdoes.place] at hg helsewhere ⊢
  obtain ⟨hd', hg'⟩ := hafter.keeps hown hnames helsewhere hdoes.reaches.2 hg
  rw [hdoes.place] at hcontent
  exact ⟨g, isFileAt_of_node hcn hdoes.nameable hd' hg', hcontent, hmode⟩

/-! ## The whole -/

/-- What a staging that ends well without stripping has installed, wherever the compiler's outputs are. Each program has been staged by a copy,
and in the end the file at its install path has the bytes that the binary had when it had been compiled, unless the binary was that very
file: then it is empty, and these are not its bytes unless it had none. A device at an install path, and what is built there for a later
program, are left out. -/
theorem rebuild_aliased (tools : Toolchain) (profile : Profile) (own : String → Path) (sourceDir installDir : Path) (s : Session)
    (report : StageReport) (s' : Session) (hw : s.machine.tree.WellNamed) (hown : tools.WritesOwn profile own)
    (h : rebuild tools profile sourceDir installDir s = .ok report s') (hstripped : report.stripped = false) :
    ∃ copies, report.installed = copies.map (fun c => ⟨c.program.name, installDir.join ⟨c.program.name⟩⟩) ∧
      (copies = [] ∨ ∃ s₁ s₂, ready installDir s = .ok () s₁ ∧ Copied tools profile installDir s₁ copies s₂) ∧
      ∀ before c after, copies = before ++ c :: after → c.compiled.machine.tree.node? c.place ≠ some .device →
        (∀ c' ∈ after, ∀ g, c'.compiled.machine.file? (own c'.program.name) ≠ some (c.place, g)) →
        ∃ g, IsFileAt s'.machine (installDir.join ⟨c.program.name⟩) c.place g ∧ g.mode = Nat.lor c.file.mode Install.executeBits ∧
          (c.origin ≠ c.place → g.content = c.file.content) ∧ (c.origin = c.place → g.content = .empty) ∧
          (g.content.toList = c.file.content.toList ↔ c.origin ≠ c.place ∨ c.file.content.toList = []) := by
  obtain ⟨programs, hdisc, ⟨rfl, rfl, -⟩ | ⟨-, s₁, installed, s₂, stripped, s₃, hready, hmap, hstrip, ha, rfl⟩⟩ := rebuild_ok h
  · exact ⟨[], rfl, Or.inl rfl, fun before c after hnil => absurd hnil.symm (List.append_ne_nil_of_right_ne_nil _ (List.cons_ne_nil _ _))⟩
  obtain ⟨hn, hsorted⟩ := Program.discover_ok hw hdisc
  obtain ⟨copies, rfl, hcopied⟩ := copied_of_mapM hown hn hmap
  refine ⟨copies, ?_, Or.inr ⟨s₁, s₂, hready, hcopied⟩, ?_⟩
  · change installed = _
    rw [installed_of_mapM hmap, List.map_map]
    rfl
  rintro before c after rfl hdevice helsewhere
  have hnames : ∀ c' ∈ before ++ c :: after, IsFileName c'.program.name := fun c' hc' => hn c'.program (List.mem_map_of_mem hc')
  obtain ⟨g, hfile, hcontent, hmode⟩ :=
    hcopied.installed hown hnames (hsorted.imp fun h => String.ne_of_lt h) helsewhere hdevice
  -- nothing is stripped, so that all that comes after is told and no more
  obtain ⟨rfl, ⟨-, ha'⟩ | ⟨hhost, -⟩⟩ := strip_ok hstrip
  · refine ⟨g, isFileAt_of_alike (ha'.trans ha) hfile, hmode, fun hne => ?_, fun heq => ?_, ?_⟩
    · rw [hcontent, if_neg (Ne.symm hne)]
    · rw [hcontent, if_pos heq.symm]
    · rw [hcontent]
      split
      · next heq =>
        rw [Content.toList_empty]
        exact ⟨fun hnil => Or.inr hnil.symm, fun h => (h.resolve_left fun hne => hne heq.symm).symm⟩
      · next hne => exact iff_of_true rfl (Or.inl (Ne.symm hne))
  · exact absurd (hhost.symm.trans hstripped) nofun

end Staging

/-! ### Builds that are made where they are installed -/

namespace Staging.InPlace

/-- A configuration with the directory of the builds as the one to install into. -/
def text : String :=
  "[target]\ntriple = \"aarch64-syskrnl\"\n\n[userspace]\ninstall_dir = \"target/aarch64-syskrnl/release\"\n"

/-- The project of that configuration. -/
def project : Project :=
  ⟨⟨"/"⟩, Config.resolve { target := { triple := "aarch64-syskrnl" }, userspace := { installDir := ⟨"target/aarch64-syskrnl/release"⟩ } } ⟨"/"⟩,
    .release, false⟩

/-- A toolchain that compiles the programs of the project to two bytes each. -/
def tools : Toolchain :=
  .writing (fun n => project.artifactPath n .release) (.ofList [1, 2]) (Target.matchesHost project.config.target.triple)

/-- A session on a machine where there is that configuration and one program to stage. -/
def session : Session where
  machine :=
    { tree := ⟨[(["kernel-image.toml"], .file ⟨.ofList (Text.encode text), newFileMode, 0⟩), (["src"], .directory),
        (["bin", "src"], .directory), (["a.rs", "bin", "src"], .file (.new newFileMode))]⟩,
      cwd := [], searchPath := "", home := ⟨""⟩, clock := 0 }

/-- The program. -/
def program : Program :=
  ⟨"a", ⟨"/src/bin/a.rs"⟩⟩

/-- Where it is installed. -/
def path : Path :=
  project.config.userspace.installDir.join ⟨"a"⟩

/-- The place that this path leads to. -/
def output : Place :=
  ["a", "release", "aarch64-syskrnl", "target"]

/-- The staging. -/
def staged : EStateM.Result Failure Session StageReport :=
  rebuild tools .release project.config.userspace.sourceDir project.config.userspace.installDir session

/-- The session in which the program has been compiled. -/
def compiled : Session :=
  endOf (compile tools .release program
    (endOf (hold .release project.config.userspace.installDir program (endOf (ready project.config.userspace.installDir session)))))

theorem load_session : Config.load ⟨"/"⟩ none session.machine = .ok project.config session.machine :=
  Config.load_of_textAt text (by decide +kernel)

theorem wellNamed_session : session.machine.tree.WellNamed := by decide

theorem writesOwn_tools : tools.WritesOwn .release fun n => project.artifactPath n .release :=
  Toolchain.writesOwn_writing _ _ _ _

/-- What the sample comes to, all told by one run of it: the report and what is at the install path in the end, that the one program is
compiled, what the compiler leaves, and where the program is put. -/
theorem comes_to :
    (valueOf staged).map (fun r => (r.installed, r.stripped)) = some ([⟨"a", path⟩], false) ∧
      ((endOf staged).machine.tree.entry (endOf staged).machine.cwd path .never).toOption =
        some (output, .file ⟨.empty, Nat.lor newFileMode Install.executeBits, 0⟩) ∧
      endedWell (ready project.config.userspace.installDir session) = true ∧
      endedWell (hold .release project.config.userspace.installDir program (endOf (ready project.config.userspace.installDir session))) = true ∧
      endedWell (compile tools .release program (endOf (hold .release project.config.userspace.installDir program
        (endOf (ready project.config.userspace.installDir session))))) = true ∧
      compiled.machine.file? (project.artifactPath "a" .release) = some (output, ⟨.ofList [1, 2], newFileMode, 0⟩) ∧
      (compiled.machine.seek project.config.userspace.installDir "a").toOption.map Arrival.place = some output := by
  decide +kernel

/-- The staging ends well, and an empty file is at the install path then. -/
theorem staged_eq_ok :
    ∃ report s', staged = .ok report s' ∧ report.installed = [⟨"a", path⟩] ∧ report.stripped = false ∧
      IsFileAt s'.machine path output ⟨.empty, Nat.lor newFileMode Install.executeBits, 0⟩ := by
  obtain ⟨hvalue, hleft, -⟩ := comes_to
  obtain ⟨report, h, hreport⟩ := exists_of_valueOf hvalue
  obtain ⟨hinstalled, hstripped⟩ := Prod.mk.inj hreport
  exact ⟨report, _, h, hinstalled, hstripped, ExceptAux.toOption_eq_some.1 hleft⟩

/-- What the program is compiled to, and where. -/
theorem of_compile {s₁ s₂ s₃ : Session} {binary : Path} (hready : ready project.config.userspace.installDir session = .ok () s₁)
    (hhold : hold .release project.config.userspace.installDir program s₁ = .ok () s₂)
    (hcomp : compile tools .release program s₂ = .ok binary s₃) : s₃ = compiled ∧ binary = project.artifactPath "a" .release := by
  constructor
  · rw [compiled, hready, endOf_ok, hhold, endOf_ok, hcomp, endOf_ok]
  · obtain ⟨_, m, -, hpure⟩ := bind_eq_ok.1 (compile_ok hcomp).1
    cases hpure
    rfl

end Staging.InPlace

namespace Staging

open InPlace in
/-- The program of the sample is installed empty, since it is copied from where it is copied to. -/
theorem rebuild_aliased_inPlace :
    session.machine.tree.WellNamed ∧ tools.WritesOwn .release (fun n => project.artifactPath n .release) ∧
      ∃ report s', staged = .ok report s' ∧ report.stripped = false ∧ ∃ (c : Copy) (g : File),
        report.installed = [⟨c.program.name, path⟩] ∧ c.origin = c.place ∧ c.file.content.toList = [1, 2] ∧
          IsFileAt s'.machine path c.place g ∧ g.content = .empty := by
  obtain ⟨report, s', h, hinstalled, hstripped, -⟩ := staged_eq_ok
  obtain ⟨copies, hcopies, hrow, heach⟩ := rebuild_aliased tools .release (fun n => project.artifactPath n .release)
    project.config.userspace.sourceDir project.config.userspace.installDir session report s' wellNamed_session writesOwn_tools h hstripped
  rw [hinstalled] at hcopies
  obtain ⟨c, rfl, hc⟩ := List.map_eq_singleton_iff.1 hcopies.symm
  obtain ⟨hname, hpath⟩ := Installed.mk.inj hc
  rcases hrow with hnil | ⟨s₁, s₂, hready, hcopied⟩
  · cases hnil
  cases hcopied with
  | cons hmade _ =>
    obtain ⟨⟨name, source⟩, s₃, origin, file, place⟩ := c
    cases hname
    obtain ⟨s₂, binary, a, i, hhold, hcomp, hfile, hseek, hplace, -⟩ := hmade
    obtain ⟨hcompiled, hbinary⟩ := of_compile hready hhold hcomp
    obtain ⟨-, -, -, -, -, hfiles, hplaces⟩ := comes_to
    rw [← hcompiled] at hplaces hfiles
    rw [hseek] at hplaces
    rw [← hbinary] at hfiles
    have hplace : place = output := hplace.symm.trans (Option.some.inj hplaces)
    obtain ⟨horigin, hcontent⟩ := Prod.mk.inj (Option.some.inj (hfile.symm.trans hfiles))
    have hnode := (Tree.node?_of_entry (Machine.file?_eq_some.1 hfiles)).1
    obtain ⟨g, hg, -, -, hempty, -⟩ := heach [] _ [] rfl (by rw [hplace, hnode]; nofun) nofun
    exact ⟨wellNamed_session, writesOwn_tools, report, s', h, hstripped, _, g, hinstalled, horigin.trans hplace.symm, by rw [hcontent]; rfl,
      hg, hempty (horigin.trans hplace.symm)⟩

open InPlace in
/-- A staging that ends well can leave an empty file at an install path, though the compiled file had bytes: here the configuration is
accepted, and the compiler writes nothing but the program's own artifact. -/
theorem rebuild_in_place :
    Config.load ⟨"/"⟩ none session.machine = .ok project.config session.machine ∧
      tools.WritesOwn .release (fun n => project.artifactPath n .release) ∧
      ∃ report s' s₁ f place g, staged = .ok report s' ∧ report.installed = [⟨"a", path⟩] ∧ report.stripped = false ∧
        ready project.config.userspace.installDir session = .ok () s₁ ∧
        CompiledTo tools .release project.config.userspace.installDir s₁ program f ∧ f.content.toList = [1, 2] ∧
        IsFileAt s'.machine path place g ∧ g.content.toList = [] := by
  obtain ⟨report, s', h, hinstalled, hstripped, hleft⟩ := staged_eq_ok
  obtain ⟨-, -, hended, hheld, hdone, hfiles, -⟩ := comes_to
  obtain ⟨_, s₁, hready⟩ := endedWell_iff.1 hended
  rw [hready, endOf_ok] at hheld hdone
  obtain ⟨_, s₂, hhold⟩ := endedWell_iff.1 hheld
  rw [hhold, endOf_ok] at hdone
  obtain ⟨binary, s₃, hcomp⟩ := endedWell_iff.1 hdone
  obtain ⟨hcompiled, hbinary⟩ := of_compile hready hhold hcomp
  have hfile := Machine.file?_eq_some.1 hfiles
  rw [← hcompiled, ← hbinary] at hfile
  have hcontent : (Content.ofList [1, 2]).toList = [1, 2] := Content.toList_ofList _
  have hempty : Content.empty.toList = [] := Content.toList_empty
  exact ⟨load_session, writesOwn_tools, report, s', s₁, ⟨.ofList [1, 2], newFileMode, 0⟩, output, _, h, hinstalled, hstripped, hready,
    ⟨s₂, binary, s₃, output, hhold, hcomp, hfile⟩, hcontent, hleft, hempty⟩

end Staging

end BootDisk
