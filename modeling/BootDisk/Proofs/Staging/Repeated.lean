import BootDisk.Proofs.Container
import BootDisk.Proofs.Discovery.Binaries
import BootDisk.Proofs.Staging.Confined

/-!
# Staging over what is left

What a staging installs does not depend on what it finds at the install paths. The tools are taken to follow a recipe (`Recipe`,
`Staging.Follows`): what a program is compiled to depends on its name, and what stripping does to binaries on the binaries. Whether a staging
ends well, and what it leaves then, is told by the recipe alone (`Staging.rebuild_ends`, `Staging.rebuild_leaves`), so that two stagings over
different leftovers come to the same, and one that is repeated changes nothing (`Staging.rebuild_repeatable`). Only the making of the install
directory has to come to the same in both.
-/

namespace BootDisk

/-- What a binary is: its bytes and its permission bits. -/
structure Binary where
  bytes : List UInt8
  mode : Nat
  deriving DecidableEq, Repr

/-- The binary with everyone let run it. -/
def Binary.executable (b : Binary) : Binary :=
  { b with mode := Nat.lor b.mode Install.executeBits }

/-- The binary that a file is. -/
def File.binary (f : File) : Binary :=
  ⟨f.content.toList, f.mode⟩

/-- The binary at a path, if the path names a regular file, and no link to one. -/
def Machine.binaryAt (m : Machine) (path : Path) : Option Binary :=
  match m.tree.entry m.cwd path .never with
  | .ok (_, .file f) => some f.binary
  | _ => none

/-- The binary that a compilation has left at the path that it tells, if it has left one. -/
def compiledBinary : EStateM.Result Failure Machine Path → Option Binary
  | .ok path m => (m.file? path).map fun e => e.2.binary
  | .error _ _ => none

/-- What tools make of programs: the binary that each is compiled to, if it can be, by its name; which binaries can be stripped together;
and what each is stripped to. -/
structure Recipe where
  product : String → Option Binary
  strippable : List Binary → Bool
  stripped : Binary → Binary

namespace Recipe

variable (recipe : Recipe)

/-- What is at the install path of a program in the end, by whether the host can strip it. -/
def outcome (matchesHost : Bool) (n : String) : Option Binary :=
  (recipe.product n).map fun b => if matchesHost then recipe.stripped b.executable else b.executable

/-- The binaries that are stripped. -/
def executables (programs : List Program) : List Binary :=
  programs.filterMap fun p => (recipe.product p.name).map Binary.executable

/-- The programs can all be compiled and installed, and what they are compiled to can be stripped if the host can. -/
def Works (matchesHost : Bool) (installDir : Path) (programs : List Program) : Prop :=
  (∀ p ∈ programs, Tree.Nameable installDir p.name ∧ (recipe.product p.name).isSome = true) ∧
    (matchesHost = true → recipe.strippable (recipe.executables programs) = true)

end Recipe

namespace Staging

/-! ## What is assumed -/

/-- The programs that there are have been found and the install directory has been made. -/
def Prepared (sourceDir installDir : Path) (s : Session) (programs : List Program) (s₁ : Session) : Prop :=
  Program.discover sourceDir s.machine = .ok programs s.machine ∧ ready installDir s = .ok () s₁

/-- Stripping follows the recipe: given binaries it ends well if they can be stripped together, and then each is what it is stripped to. -/
def Strips (recipe : Recipe) (paths : List Path) (m : Machine) (r : EStateM.Result Failure Machine Unit) : Prop :=
  ∀ binaries, paths.map m.binaryAt = binaries.map some →
    endedWell r = recipe.strippable binaries ∧
      (endedWell r = true → ∀ path ∈ paths, (endOf r).binaryAt path = (m.binaryAt path).map recipe.stripped)

/-- Wherever a staging calls the tools, they follow the recipe, and compiling leaves the install paths alone. -/
structure Follows (tools : Toolchain) (profile : Profile) (sourceDir installDir : Path) (recipe : Recipe) (s : Session) : Prop where
  clean : ∀ programs s₁, Prepared sourceDir installDir s programs s₁ → AllClean tools profile installDir programs s₁ programs
  compiles : ∀ programs s₁, Prepared sourceDir installDir s programs s₁ →
    AtCompile tools profile installDir s₁ programs fun p m => compiledBinary (tools.compile p.name profile m) = recipe.product p.name
  strips : ∀ done s₁ s₂ m, Prepared sourceDir installDir s (done.map Prod.fst) s₁ → Staged tools profile installDir s₁ done s₂ →
    Act.print s!"[stage] stripping {(installPaths installDir (done.map Prod.fst)).length} binaries" s₂.machine = .ok () m →
    Strips recipe (installPaths installDir (done.map Prod.fst)) m (tools.strip (installPaths installDir (done.map Prod.fst)) m)

/-- Something is so of a program and a machine, wherever the one's turn comes on the other when programs are staged from a session. -/
def AtTurn (tools : Toolchain) (profile : Profile) (installDir : Path) (s : Session) (todo : List Program)
    (P : Program → Machine → Prop) : Prop :=
  ∀ done p rest s₁, todo = done.map Prod.fst ++ p :: rest → Staged tools profile installDir s done s₁ → P p s₁.machine

/-- The way to the install directory does not go through a link at the program's install path. -/
def Bypasses (installDir : Path) (p : Program) (m : Machine) : Prop :=
  ∀ d target, m.Reaches installDir d → m.tree.node? (p.name :: d) = some (.link target) →
    (m.tree.erase (p.name :: d)).Reaches m.cwd installDir d

/-- What a staging finds at the install paths can be replaced: nothing, a file or a link, where the way to the install directory goes through
none of these links. -/
structure Replaceable (tools : Toolchain) (profile : Profile) (sourceDir installDir : Path) (s : Session) : Prop where
  kinds : ∀ programs s₁ d, Prepared sourceDir installDir s programs s₁ → s₁.machine.Reaches installDir d → ∀ p ∈ programs,
    s₁.machine.tree.node? (p.name :: d) ≠ some .directory ∧ s₁.machine.tree.node? (p.name :: d) ≠ some .device
  bypassed : ∀ programs s₁, Prepared sourceDir installDir s programs s₁ →
    AtTurn tools profile installDir s₁ programs (Bypasses installDir)

variable {tools : Toolchain} {profile : Profile} {sourceDir installDir : Path} {recipe : Recipe} {programs todo : List Program} {p : Program}
variable {done : List (Program × File)} {s s₁ s₂ s' : Session} {m m' : Machine} {d : Place} {f : File} {path : Path} {b : Binary}

/-! ## Binaries -/

theorem binaryAt_eq_some : m.binaryAt path = some b ↔ ∃ place f, IsFileAt m path place f ∧ f.binary = b := by
  unfold Machine.binaryAt
  constructor
  · intro h
    split at h
    · next place f he => exact ⟨place, f, he, Option.some.inj h⟩
    · cases h
  · rintro ⟨place, f, he, rfl⟩
    rw [IsFileAt] at he
    rw [he]

theorem binaryAt_of_alike (ha : s.Alike s₁) (path : Path) : s₁.machine.binaryAt path = s.machine.binaryAt path := by
  rw [Machine.binaryAt, ha.1, ha.2.1]
  rfl

/-- Printing changes no binary. -/
theorem binaryAt_of_print {line : String} (h : Act.print line m = .ok () m') : m'.binaryAt = m.binaryAt := by
  cases h
  rfl

/-- A binary at a name's path is a file under the name, in the directory that is reached. -/
theorem of_binaryAt {n : String} (hn : IsFileName n) (h : m.binaryAt (installDir.join ⟨n⟩) = some b) :
    Tree.Nameable installDir n ∧ ∃ d f, m.Reaches installDir d ∧ m.tree.node? (n :: d) = some (.file f) := by
  obtain ⟨place, f, hfile, -⟩ := binaryAt_eq_some.1 h
  obtain ⟨slash, harr, -⟩ := Tree.entry_eq_ok.1 hfile
  obtain ⟨hname, d, hd, hunder⟩ := (Machine.seek_eq_ok hn).1 harr
  have hnode := Tree.node?_under m.tree d n
  rw [← hunder] at hnode
  exact ⟨hname, d, f, hd, hnode.symm⟩

/-- What a program is compiled to on its turn is the product of the recipe. -/
theorem product_of_compiledTo
    (hcompiles : ∀ s₁, hold profile installDir p s = .ok () s₁ →
      compiledBinary (tools.compile p.name profile s₁.machine) = recipe.product p.name)
    (h : CompiledTo tools profile installDir s p f) : recipe.product p.name = some f.binary := by
  obtain ⟨s₁, binary, s₂, origin, hhold, hcomp, hs⟩ := h
  rw [← hcompiles s₁ hhold, (compile_ok hcomp).1, compiledBinary, Machine.file?_eq_some.2 hs]
  rfl

/-! ## One program -/

/-- Taking hold of an install path ends well over nothing, a file or a link, if the way there does not go through the link. -/
theorem hold_ends {n : String} (hn : IsFileName n) (hname : Tree.Nameable installDir n) (hd : m.Reaches installDir d)
    (hdir : m.tree.node? (n :: d) ≠ some .directory)
    (hlink : ∀ target, m.tree.node? (n :: d) = some (.link target) → (m.tree.erase (n :: d)).Reaches m.cwd installDir d) :
    ∃ m', Install.placeholder (installDir.join ⟨n⟩) m = .ok () m' := by
  have hseek := (Machine.seek_eq_ok hn).2 ⟨hname, d, hd, rfl⟩
  cases hnode : m.tree.node? (n :: d) with
  | none =>
    rw [Tree.under_of_none hnode] at hseek
    have hno := Install.removeLink_of_no_link hn (by rw [hseek]; nofun)
    exact ⟨_, Install.placeholder_of_ok hno (Install.openCreate_of_none hn newFileMode hname hd hnode)⟩
  | some node =>
    rw [Tree.under_of_some hnode] at hseek
    cases node with
    | link target =>
      have hnone := Tree.node?_erase_self m.tree (n :: d) (List.cons_ne_nil _ _)
      exact ⟨_, Install.placeholder_of_ok (Install.removeLink_of_link hn hseek)
        (Install.openCreate_of_none hn newFileMode hname (hlink target hnode) hnone)⟩
    | directory => exact absurd hnode hdir
    | file g =>
      have hno := Install.removeLink_of_no_link hn (by rw [hseek]; nofun)
      exact ⟨_, Install.placeholder_of_ok hno
        (FileCall.openCreate_of_found newFileMode (Tree.arrive_of_no_link hseek nofun .toCreate) rfl)⟩
    | device =>
      have hno := Install.removeLink_of_no_link hn (by rw [hseek]; nofun)
      exact ⟨_, Install.placeholder_of_ok hno
        (FileCall.openCreate_of_found newFileMode (Tree.arrive_of_no_link hseek nofun .toCreate) rfl)⟩

/-- A program is staged exactly if its path is one to install at and the recipe has a product for it. -/
theorem stageProgram_ends (hfit : Fit tools profile installDir programs p s)
    (hcompiles : ∀ s₁, hold profile installDir p s = .ok () s₁ →
      compiledBinary (tools.compile p.name profile s₁.machine) = recipe.product p.name)
    (hd : s.machine.Reaches installDir d) (hdir : Tree.Nameable installDir p.name → s.machine.tree.node? (p.name :: d) ≠ some .directory)
    (hby : Bypasses installDir p s.machine) :
    endedWell (stageProgram tools profile installDir p s) = true ↔
      Tree.Nameable installDir p.name ∧ (recipe.product p.name).isSome = true := by
  have hn := hfit.names p hfit.mem
  constructor
  · intro h
    obtain ⟨i, s', h⟩ := endedWell_iff.1 h
    obtain ⟨-, -, hname, _, f, -, hf, -⟩ := stageProgram_ok hfit h
    rw [product_of_compiledTo hcompiles hf]
    exact ⟨hname, rfl⟩
  · rintro ⟨hname, hsome⟩
    obtain ⟨m, hm⟩ := hold_ends hn hname hd (hdir hname) fun target => hby d target hd
    obtain ⟨s₁, hhold, -⟩ := hold_of_ok profile hm
    have hproduct := hcompiles s₁ hhold
    cases htool : tools.compile p.name profile s₁.machine with
    | error e m₂ =>
      rw [htool, compiledBinary] at hproduct
      rw [← hproduct] at hsome
      cases hsome
    | ok binary m₂ =>
      have hcomp : compile tools profile p s₁ = .ok binary _ := during_eq_ok.2 (Run.call_of_ok htool)
      obtain ⟨-, -, d', hd', -, -, -, hnode₁⟩ := hold_ok hn hhold
      cases hd.unique hd'
      obtain ⟨-, d', hd', hsame⟩ := hfit.compile hhold hcomp
      cases hd.unique hd'
      rw [endOf_ok] at hsame
      have hnode₂ := (hsame.2 p.name ⟨p, hfit.mem, rfl⟩ hname).trans hnode₁
      rcases putIn_cases hn hname hsame.1 hnode₂ (heldNode_isDirectory _) (heldNode_isLink _) binary with
        ⟨hno, -⟩ | ⟨origin, f, s', hs, hput, -⟩
      · have hnone : m₂.file? binary = none := by
          cases hfile : m₂.file? binary with
          | none => rfl
          | some e => exact absurd (Machine.file?_eq_some.1 hfile) (hno e.1 e.2)
        rw [htool, compiledBinary, hnone] at hproduct
        rw [← hproduct] at hsome
        cases hsome
      · rw [stageProgram_eq]
        exact endedWell_iff.2 ⟨_, s', (bind_of_ok hhold).trans ((bind_of_ok hcomp).trans hput)⟩

/-! ## Programs one after the other -/

/-- What is so wherever a program's turn comes is so when the first of them has been staged. -/
theorem AtTurn.tail {P : Program → Machine → Prop} {i : Installed} (h : AtTurn tools profile installDir s (p :: todo) P)
    (hp : stageProgram tools profile installDir p s = .ok i s₁) (hf : CompiledTo tools profile installDir s p f) :
    AtTurn tools profile installDir s₁ todo P := by
  intro done q rest s₂ htodo hdone
  exact h ((p, f) :: done) q rest s₂ (by rw [htodo]; rfl) (.cons hp hf hdone)

/-- Programs are all staged exactly if their paths are ones to install at and the recipe has products for them. -/
theorem mapM_ends (hn : ∀ q ∈ programs, IsFileName q.name) (hsub : ∀ q ∈ todo, q ∈ programs)
    (hdistinct : todo.Pairwise fun a b => a.name ≠ b.name) (hclean : AllClean tools profile installDir programs s todo)
    (hcompiles : AtCompile tools profile installDir s todo fun p m =>
      compiledBinary (tools.compile p.name profile m) = recipe.product p.name)
    (hby : AtTurn tools profile installDir s todo (Bypasses installDir)) (hd : s.machine.Reaches installDir d)
    (hdir : ∀ q ∈ todo, Tree.Nameable installDir q.name → s.machine.tree.node? (q.name :: d) ≠ some .directory) :
    endedWell (todo.mapM (stageProgram tools profile installDir) s) = true ↔
      ∀ q ∈ todo, Tree.Nameable installDir q.name ∧ (recipe.product q.name).isSome = true := by
  induction todo generalizing s with
  | nil => exact iff_of_true rfl nofun
  | cons p todo ih =>
    have hfit := hclean.fit hn (.nil s) (List.nil_append _).symm (hsub p List.mem_cons_self)
    have hfirst := stageProgram_ends hfit (fun s₁ => hcompiles [] p todo s s₁ rfl (.nil s)) hd (hdir p List.mem_cons_self)
      (hby [] p todo s rfl (.nil s))
    obtain ⟨hne, hdistinct'⟩ := List.pairwise_cons.1 hdistinct
    -- once the first is staged, what is left to do is as it was
    have hrest : ∀ i s₁, stageProgram tools profile installDir p s = .ok i s₁ →
        (endedWell (todo.mapM (stageProgram tools profile installDir) s₁) = true ↔
          ∀ q ∈ todo, Tree.Nameable installDir q.name ∧ (recipe.product q.name).isSome = true) := by
      intro i s₁ hp
      obtain ⟨-, -, -, d', f, hd', hf, hsame, -⟩ := stageProgram_ok hfit hp
      cases hd.unique hd'
      refine ih (fun q hq => hsub q (List.mem_cons_of_mem _ hq)) hdistinct' (AtCompile.tail hclean hp hf) (hcompiles.tail hp hf)
        (hby.tail hp hf) hsame.1 fun q hq hname => ?_
      rw [hsame.2 q.name ⟨⟨q, hsub q (List.mem_cons_of_mem _ hq), rfl⟩, (hne q hq).symm⟩ hname]
      exact hdir q (List.mem_cons_of_mem _ hq) hname
    rw [List.forall_mem_cons, ← hfirst]
    constructor
    · intro h
      obtain ⟨installed, s', h⟩ := endedWell_iff.1 h
      obtain ⟨i, s₁, rest, hp, htodo, -⟩ := mapM_cons_eq_ok.1 h
      exact ⟨endedWell_iff.2 ⟨i, s₁, hp⟩, (hrest i s₁ hp).1 (endedWell_iff.2 ⟨rest, s', htodo⟩)⟩
    · rintro ⟨hp, htodo⟩
      obtain ⟨i, s₁, hp⟩ := endedWell_iff.1 hp
      obtain ⟨rest, s', htodo⟩ := endedWell_iff.1 ((hrest i s₁ hp).2 htodo)
      exact endedWell_iff.2 ⟨i :: rest, s', mapM_cons_eq_ok.2 ⟨i, s₁, rest, hp, htodo, rfl⟩⟩

/-- What staged programs are compiled to are the products of the recipe. -/
theorem Staged.products (h : Staged tools profile installDir s done s')
    (hcompiles : AtCompile tools profile installDir s (done.map Prod.fst) fun p m =>
      compiledBinary (tools.compile p.name profile m) = recipe.product p.name) :
    ∀ pf ∈ done, recipe.product pf.1.name = some pf.2.binary := by
  induction h with
  | nil s => nofun
  | @cons s s₁ s' p f i done hp hf hdone ih =>
    refine List.forall_mem_cons.2 ⟨?_, ih (hcompiles.tail hp hf)⟩
    exact product_of_compiledTo (fun s₂ => hcompiles [] p _ s s₂ rfl (.nil s)) hf

/-- What staged programs leave at their install paths, unless devices were there, are the executables of the recipe. -/
theorem Staged.leaves (h : Staged tools profile installDir s done s') (hn : ∀ q ∈ done.map Prod.fst, IsFileName q.name)
    (hdistinct : (done.map Prod.fst).Pairwise fun a b => a.name ≠ b.name)
    (hclean : AllClean tools profile installDir (done.map Prod.fst) s (done.map Prod.fst))
    (hcompiles : AtCompile tools profile installDir s (done.map Prod.fst) fun p m =>
      compiledBinary (tools.compile p.name profile m) = recipe.product p.name)
    (hd : s.machine.Reaches installDir d)
    (hkinds : ∀ q ∈ done.map Prod.fst, s.machine.tree.node? (q.name :: d) ≠ some .device) :
    ∀ q ∈ done.map Prod.fst,
      s'.machine.binaryAt (installDir.join ⟨q.name⟩) = (recipe.product q.name).map Binary.executable := by
  obtain ⟨-, hsame, hcarries⟩ := h.effect hn (fun _ hq => hq) hclean (List.append_nil _).symm hdistinct hd
  intro q hq
  obtain ⟨pf, hpf, rfl⟩ := List.mem_map.1 hq
  obtain ⟨hname, hcarried⟩ := hcarries pf hpf
  obtain ⟨g, hg, hcontent, hmode⟩ := hcarried (hkinds pf.1 hq)
  rw [h.products hcompiles pf hpf]
  refine binaryAt_eq_some.2 ⟨_, g, isFileAt_of_node (hn pf.1 hq) hname hsame.1 hg, ?_⟩
  rw [File.binary, hcontent, hmode]
  rfl

/-! ## Stripping -/

/-- Where the host can, stripping ends well if the tool's work does. -/
theorem endedWell_strip {installed : List Installed} (hhost : tools.matchesHost = true)
    (hprint : Act.print s!"[stage] stripping {(installed.map Installed.path).length} binaries" s.machine = .ok () m) :
    endedWell (strip tools installed s) = endedWell (tools.strip (installed.map Installed.path) m) := by
  have hstrip : strip tools installed s =
      (Run.call (.strip (installed.map Installed.path)) (tools.strip (installed.map Installed.path)) >>= fun _ => pure true)
        { s with machine := m } :=
    (congrFun (if_pos hhost) s).trans (bind_of_ok (Act.toRun_of_ok hprint))
  rw [hstrip]
  cases h : tools.strip (installed.map Installed.path) m with
  | error e m' => rw [bind_of_error (Run.call_of_error h)]; rfl
  | ok _ m' => rw [bind_of_ok (Run.call_of_ok h)]; rfl

/-- Where the host cannot, stripping is left out. -/
theorem strip_of_mismatch (installed : List Installed) (hhost : tools.matchesHost = false) (s : Session) :
    ∃ s', strip tools installed s = .ok false s' ∧ s.Alike s' := by
  obtain ⟨s', hwarn, ha⟩ := Act.warn_toRun "[stage] host architecture differs from target; leaving binaries unstripped" s
  exact ⟨s', (congrFun (if_neg (Bool.eq_false_iff.1 hhost)) s).trans (bind_of_ok hwarn), ha⟩

/-! ## The whole -/

/-- After the install directory has been made, its path leads down to a place. -/
theorem reaches_of_ready (h : ready installDir s = .ok () s₁) : ∃ d, s₁.machine.Reaches installDir d := by
  by_cases hdir : installDir.text = ""
  · exact ⟨_, Tree.reaches_of_empty _ _ hdir⟩
  · obtain ⟨d, hd⟩ := Tree.stat_eq_ok.1 (Tree.isDirectory_iff.1 (isDirectory_of_ready h hdir))
    exact ⟨d, Tree.reaches_of_entry hd⟩

/-- The binaries that are found at the install paths when programs have been staged are the executables of the recipe. -/
theorem binaries_of_products {binaryAt : Path → Option Binary}
    (h : ∀ p ∈ programs, (recipe.product p.name).isSome = true ∧
      binaryAt (installDir.join ⟨p.name⟩) = (recipe.product p.name).map Binary.executable) :
    (installPaths installDir programs).map binaryAt = (recipe.executables programs).map some := by
  induction programs with
  | nil => rfl
  | cons p programs ih =>
    obtain ⟨⟨hsome, hat⟩, hrest⟩ := List.forall_mem_cons.1 h
    obtain ⟨b, hb⟩ := Option.isSome_iff_exists.1 hsome
    rw [hb] at hat
    rw [Recipe.executables, List.filterMap_cons, hb]
    exact congr (congrArg List.cons hat) (ih hrest)

/-- The programs have been staged, and what is at their install paths is what the recipe has for them. -/
theorem staged_of_recipe (hn : ∀ q ∈ programs, IsFileName q.name) (hprep : Prepared sourceDir installDir s programs s₁)
    (hfollows : Follows tools profile sourceDir installDir recipe s)
    (hreplaceable : Replaceable tools profile sourceDir installDir s) {installed : List Installed}
    (h : programs.mapM (stageProgram tools profile installDir) s₁ = .ok installed s₂) :
    installed.map Installed.path = installPaths installDir programs ∧
      ∃ done, done.map Prod.fst = programs ∧ Staged tools profile installDir s₁ done s₂ ∧
        ∀ p ∈ programs, (recipe.product p.name).isSome = true ∧
          s₂.machine.binaryAt (installDir.join ⟨p.name⟩) = (recipe.product p.name).map Binary.executable := by
  have hclean := hfollows.clean programs s₁ hprep
  obtain ⟨rfl, done, rfl, hstaged⟩ := staged_of_mapM hn (fun _ hq => hq) hclean h
  obtain ⟨d, hd⟩ := reaches_of_ready hprep.2
  have hdistinct := (Program.sorted_of_discover hprep.1).imp fun h => String.ne_of_lt h
  have hcompiles := hfollows.compiles _ s₁ hprep
  refine ⟨by rw [List.map_map]; rfl, done, rfl, hstaged, fun p hp => ⟨?_, ?_⟩⟩
  · obtain ⟨pf, hpf, rfl⟩ := List.mem_map.1 hp
    rw [hstaged.products hcompiles pf hpf]
    rfl
  · exact hstaged.leaves hn hdistinct hclean hcompiles hd (fun q hq => (hreplaceable.kinds _ s₁ d hprep hd q hq).2) p hp

/-- A staging that finds programs ends well exactly if the recipe works for them. -/
theorem rebuild_ends (hn : ∀ q ∈ programs, IsFileName q.name) (hne : programs ≠ [])
    (hprep : Prepared sourceDir installDir s programs s₁) (hfollows : Follows tools profile sourceDir installDir recipe s)
    (hreplaceable : Replaceable tools profile sourceDir installDir s) :
    endedWell (rebuild tools profile sourceDir installDir s) = true ↔ recipe.Works tools.matchesHost installDir programs := by
  obtain ⟨d, hd⟩ := reaches_of_ready hprep.2
  have hdistinct := (Program.sorted_of_discover hprep.1).imp fun h => String.ne_of_lt h
  have hmapM := mapM_ends hn (fun _ hq => hq) hdistinct (hfollows.clean programs s₁ hprep) (hfollows.compiles programs s₁ hprep)
    (hreplaceable.bypassed programs s₁ hprep) hd fun q hq _ => (hreplaceable.kinds programs s₁ d hprep hd q hq).1
  -- what is left to do when all are staged ends well exactly if stripping does
  have hstrip : ∀ installed s₂, programs.mapM (stageProgram tools profile installDir) s₁ = .ok installed s₂ →
      tools.matchesHost = true → endedWell (strip tools installed s₂) = recipe.strippable (recipe.executables programs) := by
    intro installed s₂ hmap hhost
    obtain ⟨hpaths, done, hdone, hstaged, hleft⟩ := staged_of_recipe hn hprep hfollows hreplaceable hmap
    obtain ⟨m, hprint⟩ : ∃ m, Act.print s!"[stage] stripping {(installPaths installDir programs).length} binaries" s₂.machine = .ok () m :=
      ⟨_, rfl⟩
    subst hdone
    rw [endedWell_strip hhost (by rw [hpaths]; exact hprint), hpaths]
    exact (hfollows.strips done s₁ s₂ m hprep hstaged hprint _ (binaries_of_products (by rw [binaryAt_of_print hprint]; exact hleft))).1
  rw [rebuild_of_found tools profile installDir hprep.1 hne, Recipe.Works, ← hmapM]
  constructor
  · intro h
    obtain ⟨report, s', h⟩ := endedWell_iff.1 h
    obtain ⟨_, s₀, hready, h⟩ := bind_eq_ok.1 h
    cases hprep.2.symm.trans hready
    obtain ⟨installed, s₂, hmap, h⟩ := bind_eq_ok.1 h
    obtain ⟨stripped, s₃, hs, -⟩ := bind_eq_ok.1 h
    exact ⟨endedWell_iff.2 ⟨installed, s₂, hmap⟩, fun hhost =>
      (hstrip installed s₂ hmap hhost).symm.trans (endedWell_iff.2 ⟨stripped, s₃, hs⟩)⟩
  · rintro ⟨hmap, hstrippable⟩
    obtain ⟨installed, s₂, hmap⟩ := endedWell_iff.1 hmap
    obtain ⟨stripped, s₃, hs⟩ : ∃ stripped s₃, strip tools installed s₂ = .ok stripped s₃ := by
      cases hhost : tools.matchesHost with
      | true => exact endedWell_iff.1 ((hstrip installed s₂ hmap hhost).trans (hstrippable hhost))
      | false =>
        obtain ⟨s₃, hs, -⟩ := strip_of_mismatch installed hhost s₂
        exact ⟨false, s₃, hs⟩
    exact endedWell_iff.2 ⟨_, _, (bind_of_ok hprep.2).trans ((bind_of_ok hmap).trans ((bind_of_ok hs).trans (bind_of_ok rfl)))⟩

/-- A staging that finds programs and ends well reports them all, and what is at their install paths then is the outcome of the recipe. -/
theorem rebuild_leaves (hn : ∀ q ∈ programs, IsFileName q.name) (hne : programs ≠ [])
    (hprep : Prepared sourceDir installDir s programs s₁) (hfollows : Follows tools profile sourceDir installDir recipe s)
    (hreplaceable : Replaceable tools profile sourceDir installDir s) {report : StageReport}
    (h : rebuild tools profile sourceDir installDir s = .ok report s') :
    report = ⟨profile, programs.map fun p => ⟨p.name, installDir.join ⟨p.name⟩⟩, tools.matchesHost⟩ ∧
      ∀ p ∈ programs, ∃ b, recipe.outcome tools.matchesHost p.name = some b ∧
        s'.machine.binaryAt (installDir.join ⟨p.name⟩) = some b := by
  obtain ⟨programs', hdisc, ⟨rfl, -⟩ | ⟨-, s₁', installed, s₂, stripped, s₃, hready, hmap, hstrip, ha, rfl⟩⟩ := rebuild_ok h
  · cases hprep.1.symm.trans hdisc
    exact absurd rfl hne
  cases hprep.1.symm.trans hdisc
  cases hprep.2.symm.trans hready
  obtain ⟨hpaths, done, hdone, hstaged, hleft⟩ := staged_of_recipe hn hprep hfollows hreplaceable hmap
  obtain ⟨rfl, hstripped⟩ := strip_ok hstrip
  refine ⟨by rw [installed_of_mapM hmap], fun p hp => ?_⟩
  obtain ⟨hsome, hat⟩ := hleft p hp
  obtain ⟨b, hb⟩ := Option.isSome_iff_exists.1 hsome
  rw [hb] at hat
  rw [Recipe.outcome, hb, binaryAt_of_alike ha]
  rcases hstripped with ⟨hhost, ha'⟩ | ⟨hhost, -, m, hprint, htool⟩
  · rw [binaryAt_of_alike ha', hat, hhost]
    exact ⟨_, rfl, rfl⟩
  · have hsame := binaryAt_of_print hprint
    subst hdone
    rw [hpaths] at hprint htool
    obtain ⟨-, heach⟩ := hfollows.strips done s₁ s₂ m hprep hstaged hprint _ (binaries_of_products (by rw [hsame]; exact hleft))
    rw [htool, endOf_ok] at heach
    rw [heach rfl _ (List.mem_map_of_mem hp), hsame, hat, hhost]
    exact ⟨_, rfl, rfl⟩

/-- Two stagings come to the same: both fail, or both end well with one report and with the same binaries at the install paths. -/
def EndAlike (r r' : EStateM.Result Failure Session StageReport) : Prop :=
  endedWell r = endedWell r' ∧
    ∀ report report' s s', r = .ok report s → r' = .ok report' s' →
      report' = report ∧ ∀ i ∈ report.installed, ∃ b, s.machine.binaryAt i.path = some b ∧ s'.machine.binaryAt i.path = some b

theorem endAlike_of_error {r r' : EStateM.Result Failure Session StageReport} (h : endedWell r = false) (h' : endedWell r' = false) :
    EndAlike r r' := by
  refine ⟨h.trans h'.symm, fun report report' s s' hr => ?_⟩
  rw [hr] at h
  cases h

/-- Two stagings of the same programs, for which the install directory has been made, come to the same. -/
theorem rebuild_alike_of_prepared {t t₁ : Session} (hn : ∀ q ∈ programs, IsFileName q.name) (hne : programs ≠ [])
    (hps : Prepared sourceDir installDir s programs s₁) (hpt : Prepared sourceDir installDir t programs t₁)
    (hs : Follows tools profile sourceDir installDir recipe s) (ht : Follows tools profile sourceDir installDir recipe t)
    (hrs : Replaceable tools profile sourceDir installDir s) (hrt : Replaceable tools profile sourceDir installDir t) :
    EndAlike (rebuild tools profile sourceDir installDir s) (rebuild tools profile sourceDir installDir t) := by
  refine ⟨Bool.eq_iff_iff.2 ((rebuild_ends hn hne hps hs hrs).trans (rebuild_ends hn hne hpt ht hrt).symm), ?_⟩
  intro r r' s' t' hr hr'
  obtain ⟨rfl, hleft⟩ := rebuild_leaves hn hne hps hs hrs hr
  obtain ⟨rfl, hleft'⟩ := rebuild_leaves hn hne hpt ht hrt hr'
  refine ⟨rfl, fun i hi => ?_⟩
  obtain ⟨p, hp, rfl⟩ := List.mem_map.1 hi
  obtain ⟨b, hb, hat⟩ := hleft p hp
  obtain ⟨b', hb', hat'⟩ := hleft' p hp
  cases hb.symm.trans hb'
  exact ⟨b, hat, hat'⟩

/-- What a search finds, it finds on the machine as it is. -/
theorem discover_of_valueOf (h : valueOf (Program.discover sourceDir m) = some programs) :
    Program.discover sourceDir m = .ok programs m := by
  cases hdisc : Program.discover sourceDir m with
  | error e m' =>
    rw [hdisc] at h
    cases h
  | ok programs' m' =>
    cases Program.machine_of_discover hdisc
    rw [hdisc] at h
    cases h
    rfl

/-- A staging whose search fails, or for which the install directory cannot be made, fails. -/
theorem rebuild_fails (tools : Toolchain) (profile : Profile)
    (h : valueOf (Program.discover sourceDir s.machine) = none ∨
      valueOf (Program.discover sourceDir s.machine) ≠ some [] ∧ endedWell (ready installDir s) = false) :
    endedWell (rebuild tools profile sourceDir installDir s) = false := by
  cases hdisc : Program.discover sourceDir s.machine with
  | error e m =>
    rw [rebuild_of_unread tools profile installDir hdisc]
    rfl
  | ok programs m =>
    cases Program.machine_of_discover hdisc
    rw [hdisc] at h
    rcases h with h | ⟨hne, hready⟩
    · cases h
    · obtain ⟨e, s₁, hready⟩ := endedWell_eq_false_iff.1 hready
      rw [rebuild_of_found tools profile installDir hdisc fun hnil => hne (congrArg some hnil), stageAll, bind_of_error hready]
      rfl

/-- Two stagings come to the same if they find the same, and the install directory can be made for both or for neither. -/
theorem rebuild_alike {t : Session} (hw : s.machine.tree.WellNamed)
    (hdisc : valueOf (Program.discover sourceDir s.machine) = valueOf (Program.discover sourceDir t.machine))
    (hready : valueOf (Program.discover sourceDir s.machine) ≠ some [] → endedWell (ready installDir s) = endedWell (ready installDir t))
    (hs : Follows tools profile sourceDir installDir recipe s) (ht : Follows tools profile sourceDir installDir recipe t)
    (hrs : Replaceable tools profile sourceDir installDir s) (hrt : Replaceable tools profile sourceDir installDir t) :
    EndAlike (rebuild tools profile sourceDir installDir s) (rebuild tools profile sourceDir installDir t) := by
  cases hvalue : valueOf (Program.discover sourceDir s.machine) with
  | none => exact endAlike_of_error (rebuild_fails tools profile (.inl hvalue)) (rebuild_fails tools profile (.inl (hdisc ▸ hvalue)))
  | some programs =>
    have hds := discover_of_valueOf hvalue
    have hdt := discover_of_valueOf (hdisc ▸ hvalue)
    by_cases hne : programs = []
    · subst hne
      obtain ⟨s₀, -, hs₀, -⟩ := rebuild_of_none tools profile installDir hds
      obtain ⟨t₀, -, ht₀, -⟩ := rebuild_of_none tools profile installDir hdt
      rw [hs₀, ht₀]
      refine ⟨rfl, fun r r' s' t' hr hr' => ?_⟩
      cases hr
      cases hr'
      exact ⟨rfl, nofun⟩
    · have hfound : valueOf (Program.discover sourceDir s.machine) ≠ some [] := by
        rw [hvalue]
        exact fun h => hne (Option.some.inj h)
      have hends := hready hfound
      cases hmade : endedWell (ready installDir s) with
      | false =>
        exact endAlike_of_error (rebuild_fails tools profile (.inr ⟨hfound, hmade⟩))
          (rebuild_fails tools profile (.inr ⟨hdisc ▸ hfound, hends.symm.trans hmade⟩))
      | true =>
        obtain ⟨_, s₁, hready₁⟩ := endedWell_iff.1 hmade
        obtain ⟨_, t₁, hready₂⟩ := endedWell_iff.1 (hends.symm.trans hmade)
        exact rebuild_alike_of_prepared (Program.discover_ok hw hds).1 hne ⟨hds, hready₁⟩ ⟨hdt, hready₂⟩ hs ht hrs hrt

/-! ## Once more -/

/-- Where binaries are at the install paths, the install directory is there, so that making it changes nothing. -/
theorem ready_of_binaryAt {n : String} (hn : IsFileName n) (h : s.machine.binaryAt (installDir.join ⟨n⟩) = some b) :
    ready installDir s = .ok () s := by
  obtain ⟨hname, d, -, hd, -⟩ := of_binaryAt hn h
  have hmake : FileCall.makeDirectories s.machine.cwd installDir s.machine.tree = .ok () s.machine.tree := by
    by_cases hdir : installDir.text = ""
    · exact FileCall.makeDirectories_of_empty hdir
    · exact FileCall.makeDirectories_of_directory (Tree.isDirectory_of_reaches (hname.accepted hn hdir) hd)
  have hfiles : (Act.files fun cwd => FileCall.makeDirectories cwd installDir) s.machine = .ok () s.machine :=
    Act.files_of_ok (fun cwd => FileCall.makeDirectories cwd installDir) hmake
  exact during_eq_ok.2 (Act.toRun_of_ok hfiles)

/-- Where binaries are at the install paths of all programs, they can be replaced. -/
theorem replaceable_of_binaryAt (hn : ∀ q ∈ programs, IsFileName q.name) (hprep : Prepared sourceDir installDir s programs s)
    (hfollows : Follows tools profile sourceDir installDir recipe s)
    (hat : ∀ p ∈ programs, ∃ b, s.machine.binaryAt (installDir.join ⟨p.name⟩) = some b) :
    Replaceable tools profile sourceDir installDir s := by
  constructor
  · intro programs' s₁ d hprep' hd p hp
    cases hprep.1.symm.trans hprep'.1
    cases hprep.2.symm.trans hprep'.2
    obtain ⟨b, hb⟩ := hat p hp
    obtain ⟨-, d', f, hd', hf⟩ := of_binaryAt (hn p hp) hb
    cases hd.unique hd'
    rw [hf]
    exact ⟨nofun, nofun⟩
  · rintro programs' s₁ hprep' done p rest s₂ rfl hstaged d target hd hlink
    cases hprep.1.symm.trans hprep'.1
    cases hprep.2.symm.trans hprep'.2
    have hp : p ∈ done.map Prod.fst ++ p :: rest := List.mem_append_right _ List.mem_cons_self
    have hdistinct := (Program.sorted_of_discover hprep.1).imp fun h => String.ne_of_lt h
    obtain ⟨b, hb⟩ := hat p hp
    obtain ⟨hname, d₀, f, hd₀, hf⟩ := of_binaryAt (hn p hp) hb
    obtain ⟨-, hsame, -⟩ := hstaged.effect hn (fun _ hq => hq) (hfollows.clean _ s hprep) rfl hdistinct hd₀
    cases hsame.1.unique hd
    -- the programs before have other names, so that the file is there yet
    have hothers : ∀ pf ∈ done, pf.1.name ≠ p.name := fun pf hpf =>
      (List.pairwise_append.1 hdistinct).2.2 pf.1 (List.mem_map_of_mem hpf) p List.mem_cons_self
    rw [hsame.2 p.name ⟨⟨p, hp, rfl⟩, hothers⟩ hname, hf] at hlink
    cases hlink

/-- What a staging comes to does not depend on what it finds at the install paths. Take two machines on which the same programs are found, with
nothing, a file or a link at each install path, and tools that follow one recipe on both; and let the install directory be one that can be
made on both or on neither. Then a staging ends well on both or on neither; if on both, the reports are equal, and at each install path there
is the same binary. And if it is repeated where it has ended well, and finds the same programs there, it ends well with the same report
and leaves each binary as it was. -/
theorem rebuild_repeatable (tools : Toolchain) (profile : Profile) (sourceDir installDir : Path) (recipe : Recipe) (s t : Session)
    (hw : s.machine.tree.WellNamed)
    (hdisc : valueOf (Program.discover sourceDir s.machine) = valueOf (Program.discover sourceDir t.machine))
    (hready : valueOf (Program.discover sourceDir s.machine) ≠ some [] → endedWell (ready installDir s) = endedWell (ready installDir t))
    (hs : Follows tools profile sourceDir installDir recipe s) (ht : Follows tools profile sourceDir installDir recipe t)
    (hrs : Replaceable tools profile sourceDir installDir s) (hrt : Replaceable tools profile sourceDir installDir t) :
    EndAlike (rebuild tools profile sourceDir installDir s) (rebuild tools profile sourceDir installDir t) ∧
      ∀ r s', rebuild tools profile sourceDir installDir s = .ok r s' →
        valueOf (Program.discover sourceDir s'.machine) = valueOf (Program.discover sourceDir s.machine) →
        Follows tools profile sourceDir installDir recipe s' →
        ∃ s'', rebuild tools profile sourceDir installDir s' = .ok r s'' ∧
          ∀ i ∈ r.installed, ∃ b, s'.machine.binaryAt i.path = some b ∧ s''.machine.binaryAt i.path = some b := by
  refine ⟨rebuild_alike hw hdisc hready hs ht hrs hrt, fun r s' h hagain hs' => ?_⟩
  obtain ⟨programs, hds, ⟨rfl, rfl, -⟩ | ⟨hne, s₁, -, -, -, -, hready₁, -⟩⟩ := rebuild_ok h
  · rw [hds] at hagain
    obtain ⟨s'', -, hs'', -⟩ := rebuild_of_none tools profile installDir (discover_of_valueOf hagain)
    exact ⟨s'', hs'', nofun⟩
  obtain ⟨hn, -⟩ := Program.discover_ok hw hds
  rw [hds] at hagain
  obtain ⟨rfl, hleft⟩ := rebuild_leaves hn hne ⟨hds, hready₁⟩ hs hrs h
  have hat : ∀ p ∈ programs, ∃ b, s'.machine.binaryAt (installDir.join ⟨p.name⟩) = some b := fun p hp =>
    (hleft p hp).imp fun _ hb => hb.2
  obtain ⟨p, hp⟩ := List.exists_mem_of_ne_nil programs hne
  obtain ⟨b, hb⟩ := hat p hp
  have hprep : Prepared sourceDir installDir s' programs s' := ⟨discover_of_valueOf hagain, ready_of_binaryAt (hn p hp) hb⟩
  obtain ⟨hends, hsame⟩ := rebuild_alike_of_prepared hn hne ⟨hds, hready₁⟩ hprep hs hs' hrs (replaceable_of_binaryAt hn hprep hs' hat)
  rw [h] at hends
  obtain ⟨r', s'', h'⟩ := endedWell_iff.1 hends.symm
  obtain ⟨rfl, hbinaries⟩ := hsame _ r' s' s'' h h'
  exact ⟨s'', h', hbinaries⟩

/-! ### Leftovers -/

/-- The recipe by which every program is compiled to one binary, and stripping changes nothing. -/
def copying (b : Binary) : Recipe where
  product := fun _ => some b
  strippable := fun _ => true
  stripped := id

/-- Who does nothing follows the recipe of what is said to be built, if that is at another place than the only program is installed at. -/
theorem follows_idle {blob : Path} (q origin : Place)
    (hdisc : ∀ programs m, Program.discover sourceDir s.machine = .ok programs m → programs = [p])
    (hseek : ((firstHeld installDir p s).machine.seek installDir p.name).toOption.map Arrival.place = some q)
    (hfile : (firstHeld installDir p s).machine.file? blob = some (origin, f)) (hne : origin ≠ q) :
    Follows (.idle blob) .release sourceDir installDir (copying f.binary) s := by
  constructor
  · intro programs s₁ hprep
    have hentry := Machine.file?_eq_some.1 hfile
    exact (spares_idle q origin hdisc hseek (by rw [hentry]; rfl) hne).compile programs s₁ hprep.1 hprep.2
  · intro programs s₁ hprep done p' rest s₂ s₃ htodo hstaged hhold
    cases hdisc programs _ hprep.1
    rcases done with _ | ⟨pf, done⟩
    · cases htodo
      cases hstaged
      have hheld : s₃ = firstHeld installDir p s := by
        rw [firstHeld, hprep.2, endOf_ok, hhold, endOf_ok]
      rw [hheld]
      exact congrArg (Option.map fun e => e.2.binary) hfile
    · exact absurd (congrArg List.length htodo) (by simp)
  · intro done s₁ s₂ m _ _ _ binaries _
    exact ⟨rfl, fun _ path _ => (Option.map_id' (x := m.binaryAt path)).symm⟩

/-- What is at the install path of the only program can be replaced, if it is nothing, a file or a link that the way does not go through. -/
theorem replaceable_single (d : Place) (hdisc : ∀ programs m, Program.discover sourceDir s.machine = .ok programs m → programs = [p])
    (hd : (endOf (ready installDir s)).machine.Reaches installDir d)
    (hkind : (endOf (ready installDir s)).machine.tree.node? (p.name :: d) ≠ some .directory ∧
      (endOf (ready installDir s)).machine.tree.node? (p.name :: d) ≠ some .device)
    (hby : ((endOf (ready installDir s)).machine.tree.erase (p.name :: d)).Reaches (endOf (ready installDir s)).machine.cwd installDir d) :
    Replaceable tools profile sourceDir installDir s := by
  constructor
  · intro programs s₁ d' hprep hd' q hq
    cases hdisc programs _ hprep.1
    cases List.mem_singleton.1 hq
    rw [hprep.2, endOf_ok] at hd hkind
    cases hd.unique hd'
    exact hkind
  · intro programs s₁ hprep done q rest s₂ htodo hstaged d' target hd' _
    cases hdisc programs _ hprep.1
    rcases done with _ | ⟨pf, done⟩
    · cases htodo
      cases hstaged
      rw [hprep.2, endOf_ok] at hd hby
      cases hd.unique hd'
      exact hby
    · exact absurd (congrArg List.length htodo) (by simp)

/-- The session of the sample with an install directory, and a link to what is built at the program's install path. -/
def sampleLeft : Session where
  machine := { sample.machine with
    tree := (sample.machine.tree.put ["inst"] .directory).put ["a", "inst"] (.link ⟨"../built"⟩) }

/-- The session when the program of the sample has been staged over the link. -/
def sampleDone : Session :=
  endOf (rebuild (.idle ⟨"built"⟩) .release ⟨"src"⟩ ⟨"inst"⟩ sampleLeft)

/-- What is built in the sample. -/
def builtFile : File :=
  ⟨.ofList [1, 2], newFileMode, 0⟩

theorem discover_of_sample (hvalue : valueOf (Program.discover ⟨"src"⟩ m) = some [⟨"a", ⟨"src/a.rs"⟩⟩]) :
    ∀ programs m', Program.discover ⟨"src"⟩ m = .ok programs m' → programs = [⟨"a", ⟨"src/a.rs"⟩⟩] :=
  fun _ _ h => eq_of_valueOf h hvalue

/-- The program of the sample is staged over a link to the built file as it is staged where nothing is, and staging it again changes
nothing. -/
theorem rebuild_repeatable_sample :
    Follows (.idle ⟨"built"⟩) .release ⟨"src"⟩ ⟨"inst"⟩ (copying builtFile.binary) sampleLeft ∧
      EndAlike (rebuild (.idle ⟨"built"⟩) .release ⟨"src"⟩ ⟨"inst"⟩ sampleLeft) (rebuild (.idle ⟨"built"⟩) .release ⟨"src"⟩ ⟨"inst"⟩ sample) ∧
      ∃ r s', rebuild (.idle ⟨"built"⟩) .release ⟨"src"⟩ ⟨"inst"⟩ sampleLeft = .ok r sampleDone ∧
        rebuild (.idle ⟨"built"⟩) .release ⟨"src"⟩ ⟨"inst"⟩ sampleDone = .ok r s' ∧ r.installed = [⟨"a", ⟨"inst/a"⟩⟩] ∧
        s'.machine.binaryAt ⟨"inst/a"⟩ = sampleDone.machine.binaryAt ⟨"inst/a"⟩ := by
  have hfound : valueOf (Program.discover ⟨"src"⟩ sampleLeft.machine) = some [⟨"a", ⟨"src/a.rs"⟩⟩] ∧
      valueOf (Program.discover ⟨"src"⟩ sampleDone.machine) = some [⟨"a", ⟨"src/a.rs"⟩⟩] ∧
      (valueOf (rebuild (.idle ⟨"built"⟩) .release ⟨"src"⟩ ⟨"inst"⟩ sampleLeft)).map StageReport.installed =
        some [⟨"a", ⟨"inst/a"⟩⟩] := by decide +kernel
  obtain ⟨hleft, hdone, hinstalled⟩ := hfound
  have hfollows : Follows (.idle ⟨"built"⟩) .release ⟨"src"⟩ ⟨"inst"⟩ (copying builtFile.binary) sampleLeft :=
    follows_idle ["a", "inst"] ["built"] (discover_of_sample hleft) (by decide +kernel) (by decide +kernel)
      (by decide)
  have hfollows' : Follows (.idle ⟨"built"⟩) .release ⟨"src"⟩ ⟨"inst"⟩ (copying builtFile.binary) sample :=
    follows_idle ["a", "inst"] ["built"] (fun _ _ => discover_sample) (by decide +kernel) (by decide +kernel) (by decide)
  have hagain : Follows (.idle ⟨"built"⟩) .release ⟨"src"⟩ ⟨"inst"⟩ (copying builtFile.binary) sampleDone :=
    follows_idle ["a", "inst"] ["built"] (discover_of_sample hdone) (by decide +kernel) (by decide +kernel)
      (by decide)
  have hreplaceable : Replaceable (.idle ⟨"built"⟩) .release ⟨"src"⟩ ⟨"inst"⟩ sampleLeft :=
    replaceable_single ["inst"] (discover_of_sample hleft)
      (Tree.reaches_of_entry (ExceptAux.toOption_eq_some.1 (by decide +kernel))) (by decide +kernel)
      (Tree.reaches_of_entry (ExceptAux.toOption_eq_some.1 (by decide +kernel)))
  have hreplaceable' : Replaceable (.idle ⟨"built"⟩) .release ⟨"src"⟩ ⟨"inst"⟩ sample :=
    replaceable_single ["inst"] (fun _ _ => discover_sample)
      (Tree.reaches_of_entry (ExceptAux.toOption_eq_some.1 (by decide +kernel))) (by decide +kernel)
      (Tree.reaches_of_entry (ExceptAux.toOption_eq_some.1 (by decide +kernel)))
  obtain ⟨halike, hrepeat⟩ := rebuild_repeatable (.idle ⟨"built"⟩) .release ⟨"src"⟩ ⟨"inst"⟩ (copying builtFile.binary) sampleLeft sample
    (by decide) (by decide +kernel) (fun _ => by decide +kernel) hfollows hfollows' hreplaceable hreplaceable'
  obtain ⟨r, hstaged, hri⟩ := exists_of_valueOf hinstalled
  rw [← sampleDone] at hstaged
  obtain ⟨s', hs', hsame⟩ := hrepeat r sampleDone hstaged (hdone.trans hleft.symm) hagain
  rw [hri] at hsame
  obtain ⟨b, hb, hb'⟩ := hsame _ List.mem_cons_self
  exact ⟨hfollows, halike, r, s', hstaged, hs', hri, hb'.trans hb.symm⟩

/-! ### A path that ends in a dot -/

/-- The session of the sample with an install directory. -/
def sampleMade : Session where
  machine := { sample.machine with tree := sample.machine.tree.put ["inst"] .directory }

/-- Whether a staging ends well can depend on whether the install directory is there already: here it is named by a path that ends in a dot,
by which no directory can be made. The two machines differ in nothing but that directory. -/
theorem rebuild_into_dot :
    Tree.AgreeOff sample.machine.tree sampleMade.machine.tree ["inst"] ∧ sample.machine.tree.node? ["inst"] = none ∧
      sampleMade.machine.tree.node? ["inst"] = some .directory ∧
      (∀ programs, valueOf (Program.discover ⟨"src"⟩ sample.machine) = some programs ↔
        valueOf (Program.discover ⟨"src"⟩ sampleMade.machine) = some programs) ∧
      Follows (.idle ⟨"built"⟩) .release ⟨"src"⟩ ⟨"inst/."⟩ (copying builtFile.binary) sampleMade ∧
      Follows (.idle ⟨"built"⟩) .release ⟨"src"⟩ ⟨"inst/."⟩ (copying builtFile.binary) sample ∧
      Replaceable (.idle ⟨"built"⟩) .release ⟨"src"⟩ ⟨"inst/."⟩ sampleMade ∧
      Replaceable (.idle ⟨"built"⟩) .release ⟨"src"⟩ ⟨"inst/."⟩ sample ∧
      endedWell (rebuild (.idle ⟨"built"⟩) .release ⟨"src"⟩ ⟨"inst/."⟩ sampleMade) = true ∧
      endedWell (rebuild (.idle ⟨"built"⟩) .release ⟨"src"⟩ ⟨"inst/."⟩ sample) = false := by
  have hfails : endedWell (ready ⟨"inst/."⟩ sample) = false := by decide +kernel
  have hnone : ∀ programs s₁, ¬ Prepared ⟨"src"⟩ ⟨"inst/."⟩ sample programs s₁ := by
    rintro programs s₁ ⟨-, hready⟩
    rw [hready] at hfails
    cases hfails
  have hvalue : valueOf (Program.discover ⟨"src"⟩ sampleMade.machine) = some [⟨"a", ⟨"src/a.rs"⟩⟩] := by decide +kernel
  have hvalue' : valueOf (Program.discover ⟨"src"⟩ sample.machine) = some [⟨"a", ⟨"src/a.rs"⟩⟩] := by decide +kernel
  refine ⟨Tree.agreeOff_put _ _ _, by decide +kernel, by decide +kernel, fun programs => by rw [hvalue, hvalue'], ?_, ?_, ?_, ?_,
    by decide +kernel, by decide +kernel⟩
  · exact follows_idle ["a", "inst"] ["built"] (discover_of_sample hvalue) (by decide +kernel) (by decide +kernel)
      (by decide)
  · exact ⟨fun programs s₁ h => absurd h (hnone programs s₁), fun programs s₁ h => absurd h (hnone programs s₁),
      fun done s₁ _ _ h => absurd h (hnone _ s₁)⟩
  · exact replaceable_single ["inst"] (discover_of_sample hvalue)
      (Tree.reaches_of_entry (ExceptAux.toOption_eq_some.1 (by decide +kernel))) (by decide +kernel)
      (Tree.reaches_of_entry (ExceptAux.toOption_eq_some.1 (by decide +kernel)))
  · exact ⟨fun programs s₁ _ h => absurd h (hnone programs s₁), fun programs s₁ h => absurd h (hnone programs s₁)⟩

end Staging

end BootDisk
