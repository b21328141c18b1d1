import BootDisk.Proofs.Agree
import BootDisk.Proofs.Assembly
import BootDisk.Proofs.FileTree.Times
import BootDisk.Proofs.Run.Trace

/-!
# What a run makes of the time

An assembly takes nothing from the clock but the time that it gives the kernel's entry source, and it does not look at file times. So with
programs that do not look at them either, it goes alike at any time (`Options.agree_image`).
-/

namespace BootDisk

open BootDisk.Tree (SameButTimes)

namespace Tree.SameButTimes

variable {t t' : Tree}

/-- What is asked of a tree without its times is answered alike. -/
theorem answers {α β : Type} (h : SameButTimes t t') (question : Tree → α) (seen : β → α) {answer : Tree → β}
    (hquestion : ∀ t : Tree, question t.timeless = seen (answer t)) : seen (answer t) = seen (answer t') := by
  rw [← hquestion, ← hquestion, show t.timeless = t'.timeless from h]

theorem isFile (h : SameButTimes t t') (cwd : Place) (p : Path) : t.isFile cwd p = t'.isFile cwd p :=
  h.answers (·.isFile cwd p) id (isFile_timeless · cwd p)

theorem stat (h : SameButTimes t t') (cwd : Place) (p : Path) :
    (t.stat cwd p).map Node.timeless = (t'.stat cwd p).map Node.timeless :=
  h.answers (·.stat cwd p) (Except.map Node.timeless) (stat_timeless · cwd p)

theorem readAll (h : SameButTimes t t') (cwd : Place) (p : Path) : t.readAll cwd p = t'.readAll cwd p :=
  h.answers (·.readAll cwd p) id (readAll_timeless · cwd p)

theorem openWrite (h : SameButTimes t t') (cwd : Place) (p : Path) :
    (t.openWrite cwd p).map (Prod.map id Node.timeless) = (t'.openWrite cwd p).map (Prod.map id Node.timeless) :=
  h.answers (·.openWrite cwd p) (Except.map (Prod.map id Node.timeless)) (openWrite_timeless · cwd p)

/-- Nodes that differ in nothing but their times are put alike. -/
theorem put (h : SameButTimes t t') (p : Place) {n n' : Node} (hn : n.timeless = n'.timeless) : SameButTimes (t.put p n) (t'.put p n') := by
  unfold SameButTimes
  rw [timeless_put, timeless_put, hn, show t.timeless = t'.timeless from h]

end Tree.SameButTimes

namespace FileCall

/-- A file is made new whatever the times of the others are. -/
theorem agree_openNew (cwd : Place) (p : Path) : Agree SameButTimes Eq (openNew cwd p) (openNew cwd p) := by
  intro t t' ht
  have harrive := Tree.SameButTimes.answers ht (·.arrive cwd p .never) (Except.map Arrival.timeless) (Tree.arrive_timeless · cwd p .never)
  unfold openNew
  rcases ExceptAux.cases_of_map_eq harrive with ⟨e, hx, hy⟩ | ⟨a, a', hx, hy, ha⟩
  · rw [hx, hy]
    exact .error ht
  rw [hx, hy]
  cases a with
  | found place n slash =>
    cases a' with
    | found place' n' slash' =>
      obtain ⟨-, -, rfl⟩ := Arrival.found.inj ha
      exact .error ht
    | vacant => cases ha
  | vacant parent name slash =>
    cases a' with
    | found => cases ha
    | vacant parent' name' slash' =>
      cases ha
      dsimp only
      split
      · exact .error ht
      · exact .ok rfl (ht.put (name :: parent) rfl)

theorem agree_store (place : Place) {n n' : Node} (h : n.timeless = n'.timeless) (c : Content) :
    Agree SameButTimes Eq (store place n c) (store place n' c) := by
  intro t t' ht
  refine .ok rfl ?_
  change (t.store place n c).timeless = (t'.store place n' c).timeless
  rw [Tree.timeless_store, Tree.timeless_store, h, show t.timeless = t'.timeless from ht]

end FileCall

namespace Agree

/-- What is opened is the same, but for its time. -/
theorem openWrite (p : Path) :
    Agree (Machine.Like SameButTimes) (fun e e' => Prod.map id Node.timeless e = Prod.map id Node.timeless e')
      (Act.look fun t cwd => t.openWrite cwd p) (Act.look fun t cwd => t.openWrite cwd p) :=
  .look (Prod.map id Node.timeless) fun _ _ cwd ht => ht.openWrite cwd p

theorem stat (p : Path) :
    Agree (Machine.Like SameButTimes) (fun n n' => n.timeless = n'.timeless)
      (Act.look fun t cwd => t.stat cwd p) (Act.look fun t cwd => t.stat cwd p) :=
  .look Node.timeless fun _ _ cwd ht => ht.stat cwd p

theorem readAll (p : Path) :
    Agree (Machine.Like SameButTimes) Eq (Act.look fun t cwd => t.readAll cwd p) (Act.look fun t cwd => t.readAll cwd p) :=
  .look id fun _ _ cwd ht => congrArg (Except.map id) (ht.readAll cwd p)

end Agree

namespace Container

theorem lengthOf_timeless (n : Node) : lengthOf n.timeless = lengthOf n := by cases n <;> rfl

theorem agree_create (path : Path) (size : Nat) : Agree (Machine.Like SameButTimes) Eq (create path size) (create path size) := by
  unfold create
  refine .bind (.during _ (.files fun cwd => FileCall.agree_openNew cwd path)) fun e e' he => ?_
  subst he
  exact .during _ (.files fun _ => .ite (fun _ _ ht => .error ht) (FileCall.agree_store _ rfl _))

/-- A container that is there is used if it is a file. -/
theorem ensure_of_stat {s : Session} {path : Path} {n : Node} (h : s.machine.tree.stat s.machine.cwd path = .ok n) (tools : Toolchain)
    (capacity : Nat) :
    ensure tools path capacity s =
      if n.isFile then .ok (.reused (lengthOf n)) s else .error { cause := .containerNotRegular path } s := by
  unfold ensure
  rw [h]
  cases n <;> rfl

/-- Where nothing is seen, it is created only if nothing is there. -/
theorem ensure_of_stat_error {s : Session} {path : Path} {e : IoError} (h : s.machine.tree.stat s.machine.cwd path = .error e)
    (tools : Toolchain) (capacity : Nat) :
    ensure tools path capacity s =
      if e = .os .noEntry then ensure.create tools path capacity s
      else .error { activities := [.inspectingContainer path], cause := .io e } s := by
  unfold ensure
  rw [h]
  split
  · next h' => cases h'
  · next h' => cases h'
  · next h' => exact (if_pos (Except.error.inj h')).symm
  · next e' hne h' =>
    cases h'
    exact (if_neg hne).symm

theorem agree_ensure {tools : Toolchain} (hcreate : tools.create = create) (path : Path) (capacity : Nat) :
    Agree (Session.Like SameButTimes) Eq (ensure tools path capacity) (ensure tools path capacity) := by
  have hnew : Agree (Session.Like SameButTimes) Eq (ensure.create tools path capacity) (ensure.create tools path capacity) := by
    unfold ensure.create
    rw [hcreate]
    refine .bind (.call _ (agree_create path capacity)) fun _ _ _ => .bind (.during _ (.toRun (.stat path))) fun n n' hn => ?_
    rw [← lengthOf_timeless n, hn, lengthOf_timeless]
    exact .ite (.pure rfl) (.fail _)
  intro s s' hs
  rcases ExceptAux.cases_of_map_eq (hs.machine.tree.stat s.machine.cwd path) with ⟨e, hx, hy⟩ | ⟨n, n', hx, hy, hn⟩
  · rw [ensure_of_stat_error hx, ensure_of_stat_error (hs.machine.cwd ▸ hy)]
    split
    · exact hnew s s' hs
    · exact .error hs
  · rw [ensure_of_stat hx, ensure_of_stat (hs.machine.cwd ▸ hy), ← n.isFile_timeless, ← n'.isFile_timeless, ← lengthOf_timeless n,
      ← lengthOf_timeless n', hn]
    split
    · exact .ok rfl hs
    · exact .error hs

theorem agree_writeBlob (container blob : Path) :
    Agree (Machine.Like SameButTimes) Eq (writeBlob container blob) (writeBlob container blob) := by
  unfold writeBlob
  refine .bind (.during _ (.readAll blob)) fun image image' himage => .bind (.during _ (.openWrite container)) fun e e' he => ?_
  subst himage
  obtain ⟨place, node⟩ := e
  obtain ⟨place', node'⟩ := e'
  obtain ⟨hplace, hnode⟩ := Prod.mk.inj he
  obtain rfl : place = place' := hplace
  have hlength : lengthOf node' = lengthOf node := by rw [← lengthOf_timeless node, hnode, lengthOf_timeless]
  dsimp only
  rw [hlength]
  have hstore {f f' : File} (hf : (Node.file f).timeless = (Node.file f').timeless) :
      Agree (Machine.Like SameButTimes) Eq
        (Act.files (fun _ => FileCall.store place (.file f) (image.overwrite f.content)) >>= fun _ =>
          Pure.pure (⟨image.length, lengthOf node⟩ : Written))
        (Act.files (fun _ => FileCall.store place (.file f') (image.overwrite f'.content)) >>= fun _ =>
          Pure.pure (⟨image.length, lengthOf node⟩ : Written)) := by
    have hcontent : f.content = f'.content := congrArg (·.content) (Node.file.inj hf)
    rw [hcontent]
    exact .bind (.files fun _ => FileCall.agree_store place hf _) fun _ _ _ => .pure rfl
  have hflush (room : Nat) : Agree (Machine.Like SameButTimes) Eq
      (during (.flushingContainer container) (fail (.io (.os .invalidArgument)) : Act Unit) >>= fun _ =>
        Pure.pure (⟨image.length, room⟩ : Written))
      (during (.flushingContainer container) (fail (.io (.os .invalidArgument)) : Act Unit) >>= fun _ =>
        Pure.pure (⟨image.length, room⟩ : Written)) :=
    .bind (V := Eq) (.during _ (.fail _)) fun _ _ _ => .pure rfl
  cases node with
  | file f =>
    cases node' with
    | file f' => exact .ite (.bind (V := Eq) (.fail _) fun _ _ _ => hstore hnode) (hstore hnode)
    | _ => cases hnode
  | _ =>
    cases node' with
    | file f' => cases hnode
    | _ => exact .ite (.bind (V := Eq) (.fail _) fun _ _ _ => hflush _) (hflush _)

end Container

namespace Project

variable {programs : Programs} (p : Project)

theorem agree_invalidate : Agree (Machine.Like SameButTimes) Eq p.invalidate p.invalidate := by
  unfold invalidate
  refine .bind (.during _ (.openWrite _)) fun e e' he => ?_
  obtain ⟨place, node⟩ := e
  obtain ⟨place', node'⟩ := e'
  obtain ⟨hplace, hnode⟩ := Prod.mk.inj he
  obtain rfl : place = place' := hplace
  cases node with
  | file f =>
    cases node' with
    | file f' =>
      have hf : ({ f with modified := 0 } : File) = { f' with modified := 0 } := Node.file.inj hnode
      intro m m' hm
      exact .ok rfl (hm.onTrees (hm.tree.put place (congrArg Node.file hf)))
    | _ => cases hnode
  | _ =>
    cases node' with
    | file f' => cases hnode
    | _ => exact .pure rfl

theorem agree_expectFile {T : Tree → Tree → Prop} {path : Path} (h : ∀ t t' cwd, T t t' → t.isFile cwd path = t'.isFile cwd path)
    (c : Cause) : Agree (Machine.Like T) Eq (expectFile path c) (expectFile path c) := by
  unfold expectFile
  refine .bind (.holds h) ?_
  rintro b _ rfl
  exact .ite (.pure rfl) (.fail _)

theorem agree_embed (h : programs.Respect SameButTimes) (profile : Profile) :
    Agree (Machine.Like SameButTimes) Eq (p.embed programs profile) (p.embed programs profile) := by
  unfold embed
  exact .bind (.run h _) fun _ _ _ => .bind (agree_expectFile (fun _ _ cwd ht => ht.isFile cwd _) _) fun _ _ _ => .pure rfl

/-- An assembly goes alike at any time. -/
theorem agree_assemble (h : programs.Respect SameButTimes) :
    Agree (Session.Like SameButTimes) Eq (p.assemble (p.toolchain programs)) (p.assemble (p.toolchain programs)) := by
  unfold assemble BootDisk.assemble
  split
  · refine .bind (.lift (.print _)) fun _ _ _ => .bind (Container.agree_ensure rfl _ _) fun state state' hstate => ?_
    subst hstate
    refine .bind (.lift (.print _)) fun _ _ _ => .bind (.during _ (.call _ p.agree_invalidate)) fun _ _ _ => ?_
    refine .bind (.lift (.print _)) fun _ _ _ => .bind (.call _ (p.agree_embed h _)) fun blob blob' hblob => ?_
    subst hblob
    refine .bind (.lift (Container.agree_writeBlob _ _)) fun written written' hwritten => ?_
    subst hwritten
    exact .bind (.lift (.print _)) fun _ _ _ => .pure rfl
  · exact .fail _

end Project

/-! ## Whole runs -/

section Looks

variable {T : Tree → Tree → Prop} (hT : ∀ t t', T t t' → SameButTimes t t')

include hT

namespace Config

theorem agree_readFile (path : Path) : Agree (Machine.Like T) Eq (readFile path) (readFile path) := by
  unfold readFile
  have hread : Agree (Machine.Like T) (fun text text' => id text = id text')
      (Act.look fun t cwd => t.readText cwd path) (Act.look fun t cwd => t.readText cwd path) :=
    .look id fun t t' cwd ht => by rw [Tree.readText, Tree.readText, (hT t t' ht).readAll cwd path]
  refine .bind (.during _ hread) fun text text' htext => .during _ ?_
  obtain rfl : text = text' := htext
  split
  · exact .pure rfl
  · exact .fail _

theorem agree_load (root : Path) (file : Option Path) : Agree (Machine.Like T) Eq (load root file) (load root file) := by
  unfold load
  have hresolve (x : Act Config) (hx : Agree (Machine.Like T) Eq x x) :
      Agree (Machine.Like T) Eq (x >>= fun c => Pure.pure (c.resolve root)) (x >>= fun c => Pure.pure (c.resolve root)) :=
    .bind hx fun c c' hc => .pure (congrArg (·.resolve root) hc)
  cases file with
  | some p => exact hresolve _ (agree_readFile hT _)
  | none =>
    refine .bind (.holds fun t t' cwd ht => (hT t t' ht).isFile cwd _) ?_
    rintro b _ rfl
    split
    · exact hresolve _ (agree_readFile hT _)
    · exact .pure rfl

end Config

theorem Settings.agree_project (settings : Settings) : Agree (Machine.Like T) Eq settings.project settings.project := by
  unfold project
  have hget : Agree (ε := Failure) (Machine.Like T) (fun m m' => m.cwd = m'.cwd) get get := fun _ _ hm => .ok hm.cwd hm
  refine .bind hget fun m m' hcwd => ?_
  rw [hcwd]
  refine .bind (Config.agree_load hT _ _) ?_
  rintro c _ rfl
  exact .pure rfl

namespace Machine.Like

variable {m m' : Machine} (hm : m.Like T m')

include hm

theorem canRun (p : Path) : m.canRun p = m'.canRun p := by
  unfold Machine.canRun
  rw [← hm.cwd]
  rcases ExceptAux.cases_of_map_eq ((hT _ _ hm.tree).stat m.cwd p) with ⟨e, hx, hy⟩ | ⟨n, n', hx, hy, hn⟩
  · rw [hx, hy]
  rw [hx, hy]
  cases n with
  | file f =>
    cases n' with
    | file f' =>
      have hmode : f.mode = f'.mode := congrArg (·.mode) (Node.file.inj hn)
      dsimp only
      rw [hmode]
    | _ => cases hn
  | _ =>
    cases n' with
    | file f' => cases hn
    | _ => rfl

theorem hasTool (name : String) : m.hasTool name = m'.hasTool name := by
  unfold Machine.hasTool Machine.candidates Machine.searchDirs
  rw [hm.searchPath, hm.home, funext (hm.canRun hT)]

end Machine.Like

theorem agree_checkTools (tools : List Tool) : Agree (Machine.Like T) Eq (checkTools tools) (checkTools tools) := by
  intro m m' hm
  unfold checkTools
  simp only [hm.hasTool hT]
  split
  · exact .ok rfl hm
  · exact .error hm

end Looks

/-- A run that assembles goes alike at any time. -/
theorem Options.agree_image {programs : Programs} (h : programs.Respect SameButTimes) (settings : Settings) :
    Agree (Session.Like SameButTimes) Eq (Options.run programs ⟨.image, settings⟩) (Options.run programs ⟨.image, settings⟩) := by
  unfold Options.run
  have hT (t t' : Tree) (ht : SameButTimes t t') : SameButTimes t t' := ht
  refine .bind (.toRun (settings.agree_project hT)) ?_
  rintro p _ rfl
  exact .bind (.toRun (agree_checkTools hT _)) fun _ _ _ => .bind (p.agree_assemble h) fun _ _ _ => .pure rfl

/-- Runs that go alike have the same exit code. -/
theorem exitCode_of_agreed {T : Tree → Tree → Prop} {programs : Programs} {args : List String} {s s' : Session}
    (h : Agreed (Session.Like T) Eq (runArguments programs args s) (runArguments programs args s')) :
    (exitCode programs args s).1 = (exitCode programs args s').1 ∧ (exitCode programs args s).2.Like T (exitCode programs args s').2 := by
  unfold exitCode
  generalize runArguments programs args s = r at h
  generalize runArguments programs args s' = r' at h
  cases h with
  | ok _ hs => exact ⟨rfl, hs⟩
  | error hs =>
    exact ⟨rfl, ⟨hs.machine.tree, hs.machine.cwd, hs.machine.searchPath, hs.machine.home, hs.machine.children⟩, hs.calls⟩

end BootDisk
