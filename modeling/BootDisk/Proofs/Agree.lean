import BootDisk.Proofs.Frame

/-!
# Work that goes alike from two states

Two states may differ in a way that work does not see. `Agree` says that work goes alike from any two of them: it fails with the same error
from both, or comes to values that belong together, and the states it ends in are such states again. It is told of each way to put work
together once. For runs the states are machines whose trees are told apart by nothing but what a given relation allows, with any clocks and
any outputs (`Machine.Like`).
-/

namespace BootDisk

/-- Answers of which the same is seen are the same error, or are values of which the same is seen. -/
theorem ExceptAux.cases_of_map_eq {ε α β γ : Type} {f : α → γ} {g : β → γ} {r : Except ε α} {r' : Except ε β} (h : r.map f = r'.map g) :
    (∃ e, r = .error e ∧ r' = .error e) ∨ ∃ a b, r = .ok a ∧ r' = .ok b ∧ f a = g b := by
  cases r with
  | error e =>
    cases r' with
    | error e' =>
      cases h
      exact Or.inl ⟨e, rfl, rfl⟩
    | ok b => cases h
  | ok a =>
    cases r' with
    | error e' => cases h
    | ok b => exact Or.inr ⟨a, b, rfl, rfl, Except.ok.inj h⟩

/-- The same error, or values that belong together, in states that do. -/
inductive Agreed {ε σ α β : Type} (R : σ → σ → Prop) (V : α → β → Prop) : EStateM.Result ε σ α → EStateM.Result ε σ β → Prop where
  | ok {a : α} {b : β} {s s' : σ} : V a b → R s s' → Agreed R V (.ok a s) (.ok b s')
  | error {e : ε} {s s' : σ} : R s s' → Agreed R V (.error e s) (.error e s')

/-- Pieces of work that go alike from states that belong together. -/
def Agree {ε σ α β : Type} (R : σ → σ → Prop) (V : α → β → Prop) (x : EStateM ε σ α) (y : EStateM ε σ β) : Prop :=
  ∀ s s', R s s' → Agreed R V (x s) (y s')

section Agreed

variable {ε σ α β : Type} {R : σ → σ → Prop} {V : α → β → Prop} {r : EStateM.Result ε σ α} {r' : EStateM.Result ε σ β}

theorem Agreed.cases (h : Agreed R V r r') :
    (∃ e s s', r = .error e s ∧ r' = .error e s' ∧ R s s') ∨ ∃ a b s s', r = .ok a s ∧ r' = .ok b s' ∧ V a b ∧ R s s' := by
  cases h with
  | ok hab hs => exact Or.inr ⟨_, _, _, _, rfl, rfl, hab, hs⟩
  | error hs => exact Or.inl ⟨_, _, _, rfl, rfl, hs⟩

/-- What comes after goes alike from where the first parts have ended, in a way that may be looser. -/
theorem Agreed.bind {α' β' : Type} {R' : σ → σ → Prop} {W : α' → β' → Prop} {x : EStateM ε σ α} {y : EStateM ε σ β}
    {f : α → EStateM ε σ α'} {g : β → EStateM ε σ β'} {s s' : σ} (h : Agreed R V (x s) (y s')) (hloose : ∀ s s', R s s' → R' s s')
    (hf : ∀ a b s₁ s₁', x s = .ok a s₁ → y s' = .ok b s₁' → V a b → R s₁ s₁' → Agreed R' W (f a s₁) (g b s₁')) :
    Agreed R' W ((x >>= f) s) ((y >>= g) s') := by
  rcases h.cases with ⟨e, s₁, s₁', hx, hy, hs⟩ | ⟨a, b, s₁, s₁', hx, hy, hab, hs⟩
  · rw [bind_of_error hx, bind_of_error hy]
    exact .error (hloose _ _ hs)
  · rw [bind_of_ok hx, bind_of_ok hy]
    exact hf a b s₁ s₁' hx hy hab hs

theorem Agreed.during {x : EStateM Failure σ α} {y : EStateM Failure σ β} {s s' : σ} (a : Activity) (h : Agreed R V (x s) (y s')) :
    Agreed R V (BootDisk.during a x s) (BootDisk.during a y s') := by
  unfold BootDisk.during
  generalize x s = r at h
  generalize y s' = r' at h
  cases h with
  | ok hab hs => exact .ok hab hs
  | error hs => exact .error hs

end Agreed

namespace Agree

section Work

variable {ε σ α β α' β' : Type} {R : σ → σ → Prop} {V : α → β → Prop} {W : α' → β' → Prop}
variable {x : EStateM ε σ α} {y : EStateM ε σ β} {f : α → EStateM ε σ α'} {g : β → EStateM ε σ β'}

theorem pure {a : α} {b : β} (h : V a b) : Agree R V (Pure.pure a : EStateM ε σ α) (Pure.pure b) :=
  fun _ _ hs => .ok h hs

theorem bind (hx : Agree R V x y) (hf : ∀ a b, V a b → Agree R W (f a) (g b)) : Agree R W (x >>= f) (y >>= g) :=
  fun s s' hs => (hx s s' hs).bind (fun _ _ h => h) fun a b s₁ s₁' _ _ hab hs₁ => hf a b hab s₁ s₁' hs₁

theorem ite {c : Prop} [Decidable c] {x' : EStateM ε σ α} {y' : EStateM ε σ β} (h : Agree R V x y) (h' : Agree R V x' y') :
    Agree R V (if c then x else x') (if c then y else y') := by
  split
  · exact h
  · exact h'

/-- Work over a list goes alike if the work on each item does. -/
theorem mapM {γ δ : Type} {g : γ → EStateM ε σ δ} (h : ∀ c, Agree R Eq (g c) (g c)) (cs : List γ) : Agree R Eq (cs.mapM g) (cs.mapM g) := by
  induction cs with
  | nil =>
    rw [List.mapM_nil]
    exact .pure rfl
  | cons c cs ih =>
    rw [List.mapM_cons]
    refine .bind (h c) fun d _ hd => .bind ih fun ds _ hds => ?_
    subst hd hds
    exact .pure rfl

end Work

section Telling

variable {σ α β : Type} {R : σ → σ → Prop} {V : α → β → Prop} {x : EStateM Failure σ α} {y : EStateM Failure σ β}

theorem during (a : Activity) (h : Agree R V x y) : Agree R V (BootDisk.during a x) (BootDisk.during a y) :=
  fun s s' hs => (h s s' hs).during a

theorem fail (c : Cause) : Agree R V (BootDisk.fail c : EStateM Failure σ α) (BootDisk.fail c) :=
  fun _ _ hs => .error hs

end Telling

end Agree

/-! ## Machines -/

/-- Machines that are the same but for their clocks and outputs, with trees that are told apart by no more than a relation allows. -/
structure Machine.Like (T : Tree → Tree → Prop) (m m' : Machine) : Prop where
  tree : T m.tree m'.tree
  cwd : m.cwd = m'.cwd
  searchPath : m.searchPath = m'.searchPath
  home : m.home = m'.home
  children : m.children = m'.children

/-- Sessions on such machines, with the same calls on record. -/
structure Session.Like (T : Tree → Tree → Prop) (s s' : Session) : Prop where
  machine : s.machine.Like T s'.machine
  calls : s.calls = s'.calls

theorem Machine.Like.mono {T U : Tree → Tree → Prop} {m m' : Machine} (h : m.Like T m') (htree : T m.tree m'.tree → U m.tree m'.tree) :
    m.Like U m' :=
  ⟨htree h.tree, h.cwd, h.searchPath, h.home, h.children⟩

/-- Whatever trees they are given. -/
theorem Machine.Like.onTrees {T U : Tree → Tree → Prop} {m m' : Machine} (h : m.Like T m') {t t' : Tree} (ht : U t t') :
    ({ m with tree := t } : Machine).Like U { m' with tree := t' } :=
  ⟨ht, h.cwd, h.searchPath, h.home, h.children⟩

theorem Session.Like.mono {T U : Tree → Tree → Prop} {s s' : Session} (h : s.Like T s')
    (htree : T s.machine.tree s'.machine.tree → U s.machine.tree s'.machine.tree) : s.Like U s' :=
  ⟨h.machine.mono htree, h.calls⟩

/-- Programs that do alike on trees that a relation does not tell apart. -/
def Programs.Respect (T : Tree → Tree → Prop) (programs : Programs) : Prop :=
  ∀ c surroundings t t', T t t' →
    (programs c surroundings t).1 = (programs c surroundings t').1 ∧ T (programs c surroundings t).2 (programs c surroundings t').2

section Machines

variable {α β γ : Type} {T U : Tree → Tree → Prop} {V : α → β → Prop} {x : Act α} {y : Act β}

/-- Acts that have gone alike on machines have done so in sessions. -/
theorem Agreed.toRun {s s' : Session} (hcalls : s.calls = s'.calls) (h : Agreed (Machine.Like T) V (x s.machine) (y s'.machine)) :
    Agreed (Session.Like T) V (x.toRun s) (y.toRun s') := by
  unfold Act.toRun
  generalize x s.machine = r at h
  generalize y s'.machine = r' at h
  cases h with
  | ok hab hm => exact .ok hab ⟨hm, hcalls⟩
  | error hm => exact .error ⟨hm, hcalls⟩

/-- A call on the file tree has gone alike if it has on the trees. -/
theorem Agreed.files {m m' : Machine} (hm : m.Like U m') {call : Place → FileCall α} {call' : Place → FileCall β}
    (h : Agreed T V (call m.cwd m.tree) (call' m.cwd m'.tree)) : Agreed (Machine.Like T) V (Act.files call m) (Act.files call' m') := by
  unfold Act.files
  rw [show call' m'.cwd = call' m.cwd from congrArg call' hm.cwd.symm]
  generalize call m.cwd m.tree = r at h
  generalize call' m.cwd m'.tree = r' at h
  cases h with
  | ok hab ht => exact .ok hab (hm.onTrees ht)
  | error ht => exact .error (hm.onTrees ht)

namespace Agree

theorem toRun (h : Agree (Machine.Like T) V x y) : Agree (Session.Like T) V x.toRun y.toRun :=
  fun s s' hs => (h s.machine s'.machine hs.machine).toRun hs.calls

theorem lift (h : Agree (Machine.Like T) V x y) : Agree (Session.Like T) V (liftM x : Run α) (liftM y : Run β) :=
  h.toRun

theorem call (c : ToolCall) (h : Agree (Machine.Like T) V x y) : Agree (Session.Like T) V (Run.call c x) (Run.call c y) :=
  fun s s' hs => h.toRun { s with calls := s.calls ++ [c] } { s' with calls := s'.calls ++ [c] }
    ⟨hs.machine, congrArg (· ++ [c]) hs.calls⟩

theorem files {call : Place → FileCall α} {call' : Place → FileCall β} (h : ∀ cwd, Agree T V (call cwd) (call' cwd)) :
    Agree (Machine.Like T) V (Act.files call) (Act.files call') :=
  fun m m' hm => .files hm (h m.cwd m.tree m'.tree hm.tree)

/-- A look at the file tree goes alike if what is seen of the answers is the same. -/
theorem look (seen : α → γ) {question : Tree → Place → Except IoError α}
    (h : ∀ t t' cwd, T t t' → (question t cwd).map seen = (question t' cwd).map seen) :
    Agree (Machine.Like T) (fun a b => seen a = seen b) (Act.look question) (Act.look question) := by
  intro m m' hm
  unfold Act.look
  rw [← hm.cwd]
  rcases ExceptAux.cases_of_map_eq (h m.tree m'.tree m.cwd hm.tree) with ⟨e, hx, hy⟩ | ⟨a, b, hx, hy, hab⟩
  · rw [hx, hy]
    exact .error hm
  · rw [hx, hy]
    exact .ok hab hm

theorem holds {question : Tree → Place → Bool} (h : ∀ t t' cwd, T t t' → question t cwd = question t' cwd) :
    Agree (Machine.Like T) Eq (Act.holds question) (Act.holds question) := by
  intro m m' hm
  unfold Act.holds
  rw [← hm.cwd, h m.tree m'.tree m.cwd hm.tree]
  exact .ok rfl hm

theorem print (line : String) : Agree (Machine.Like T) Eq (Act.print line) (Act.print line) :=
  fun _ _ hm => .ok rfl ⟨hm.tree, hm.cwd, hm.searchPath, hm.home, hm.children⟩

theorem warn (line : String) : Agree (Machine.Like T) Eq (Act.warn line) (Act.warn line) :=
  fun _ _ hm => .ok rfl ⟨hm.tree, hm.cwd, hm.searchPath, hm.home, hm.children⟩

/-- A program that is started does alike. -/
theorem launch {programs : Programs} (h : programs.Respect T) (c : Command) :
    Agree (Machine.Like T) Eq (c.launch programs) (c.launch programs) := by
  intro m m' hm
  have hstart : m.surroundings = m'.surroundings := by rw [Machine.surroundings, hm.cwd, hm.searchPath]; rfl
  have hnoted : m.children ++ [c] = m'.children ++ [c] := congrArg (· ++ [c]) hm.children
  obtain ⟨hlaunched, htree⟩ := h c m.surroundings m.tree m'.tree hm.tree
  cases hnul : c.hasNul with
  | true =>
    rw [Command.launch_of_nul programs c hnul, Command.launch_of_nul programs c hnul]
    exact .error ⟨hm.tree, hm.cwd, hm.searchPath, hm.home, hnoted⟩
  | false =>
    cases hprog : programs c m.surroundings m.tree with
    | mk launched t =>
      cases hprog' : programs c m.surroundings m'.tree with
      | mk launched' t' =>
        rw [hprog, hprog'] at hlaunched htree
        dsimp only at hlaunched htree
        subst hlaunched
        cases launched with
        | failed e =>
          rw [Command.launch_of_failed programs c hnul hprog, Command.launch_of_failed programs c hnul (hstart ▸ hprog')]
          exact .error ⟨htree, hm.cwd, hm.searchPath, hm.home, hnoted⟩
        | ended status out err =>
          rw [Command.launch_of_ended programs c hnul hprog, Command.launch_of_ended programs c hnul (hstart ▸ hprog')]
          exact .ok rfl ⟨htree, hm.cwd, hm.searchPath, hm.home, hnoted⟩

/-- A command that is run does alike. -/
theorem run {programs : Programs} (h : programs.Respect T) (c : Command) :
    Agree (Machine.Like T) Eq (c.run programs) (c.run programs) := by
  unfold Command.run Command.announce
  refine .bind (.ite (.print _) (.pure rfl)) fun _ _ _ => .bind (.during _ (.launch h c)) fun r r' hr => ?_
  subst hr
  exact .ite (.pure rfl) (.fail _)

end Agree

end Machines

end BootDisk
