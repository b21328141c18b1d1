import BootDisk.Machine.Run
import BootDisk.Proofs.Machine

/-!
# What work leaves as it is

Work that ends, well or not, with a part of the state as it was at the start (`Leaves`). It is told of each way to put work together once,
so that it can be read off a piece of work as it is written. What a run does by itself leaves everything of a machine but the file tree and
the two outputs (`Machine.fixtures`); starting another program leaves everything but these and the list of programs started
(`Machine.bearings`).
-/

namespace BootDisk

/-- Work that ends, well or not, with a part of the state as it was. -/
def Leaves {ε σ α β : Type} (part : σ → β) (x : EStateM ε σ α) : Prop :=
  ∀ s, part (endOf (x s)) = part s

namespace Leaves

section Work

variable {ε σ α β γ δ : Type} {part : σ → β} {x : EStateM ε σ α} {f : α → EStateM ε σ γ}

theorem of_ok {a : α} {s s' : σ} (h : Leaves part x) (hx : x s = .ok a s') : part s' = part s := by
  rw [← h s, hx, endOf_ok]

theorem of_error {e : ε} {s s' : σ} (h : Leaves part x) (hx : x s = .error e s') : part s' = part s := by
  rw [← h s, hx, endOf_error]

theorem pure (a : α) : Leaves part (Pure.pure a : EStateM ε σ α) :=
  fun _ => rfl

theorem bind (hx : Leaves part x) (hf : ∀ a, Leaves part (f a)) : Leaves part (x >>= f) := by
  intro s
  cases h : x s with
  | ok a s₁ => rw [bind_of_ok h, hf a s₁, hx.of_ok h]
  | error e s₁ => rw [bind_of_error h, endOf_error, hx.of_error h]

theorem ite {c : Prop} [Decidable c] {y : EStateM ε σ α} (hx : Leaves part x) (hy : Leaves part y) :
    Leaves part (if c then x else y) := by
  split
  · exact hx
  · exact hy

/-- Work over a list leaves what the work on each item leaves. -/
theorem mapM {g : γ → EStateM ε σ δ} (h : ∀ c, Leaves part (g c)) (cs : List γ) : Leaves part (cs.mapM g) := by
  induction cs with
  | nil =>
    rw [List.mapM_nil]
    exact .pure []
  | cons c cs ih =>
    rw [List.mapM_cons]
    exact .bind (h c) fun _ => .bind ih fun _ => .pure _

/-- What is left with a part is left with whatever is read off that part. -/
theorem of_part (g : β → γ) (h : Leaves part x) : Leaves (fun s => g (part s)) x :=
  fun s => congrArg g (h s)

end Work

section Telling

variable {σ α β : Type} {part : σ → β} {x : EStateM Failure σ α}

theorem during (a : Activity) (h : Leaves part x) : Leaves part (BootDisk.during a x) := by
  intro s
  rw [endOf_during, h s]

theorem fail (c : Cause) : Leaves part (BootDisk.fail c : EStateM Failure σ α) :=
  fun _ => rfl

end Telling

/-- An act that leaves a part of the machine leaves it in a session too. -/
theorem toRun {α β : Type} {part : Machine → β} {x : Act α} (h : Leaves part x) : Leaves (fun s : Session => part s.machine) x.toRun := by
  intro s
  rw [Act.endOf_toRun]
  exact h s.machine

theorem lift {α β : Type} {part : Machine → β} {x : Act α} (h : Leaves part x) :
    Leaves (fun s : Session => part s.machine) (liftM x : Run α) :=
  h.toRun

/-- So does a call of a tool. -/
theorem call {α β : Type} {part : Machine → β} {x : Act α} (c : ToolCall) (h : Leaves part x) :
    Leaves (fun s : Session => part s.machine) (Run.call c x) := by
  intro s
  rw [Run.endOf_call]
  exact h s.machine

end Leaves

/-- Where a run works, where it looks for programs, and what time it is. -/
def Machine.bearings (m : Machine) : Place × String × Path × Nat :=
  (m.cwd, m.searchPath, m.home, m.clock)

/-- Everything of a machine but the file tree and the outputs. -/
def Machine.fixtures (m : Machine) : (Place × String × Path × Nat) × List Command :=
  (m.bearings, m.children)

namespace Leaves

variable {α : Type} {x : Act α} {y : Run α}

theorem children (h : Leaves (fun s => s.machine.fixtures) y) : Leaves (fun s => s.machine.children) y :=
  h.of_part Prod.snd

theorem bearings (h : Leaves (fun s => s.machine.fixtures) y) : Leaves (fun s => s.machine.bearings) y :=
  h.of_part Prod.fst

/-! ## Acts -/

theorem files (call : Place → FileCall α) : Leaves Machine.fixtures (Act.files call) := by
  intro m
  rw [Act.endOf_files]
  rfl

theorem look {β : Type} {part : Machine → β} (question : Tree → Place → Except IoError α) : Leaves part (Act.look question) := by
  intro m
  unfold Act.look
  split <;> rfl

theorem holds {β : Type} {part : Machine → β} (question : Tree → Place → Bool) : Leaves part (Act.holds question) :=
  fun _ => rfl

theorem print (line : String) : Leaves Machine.fixtures (Act.print line) :=
  fun _ => rfl

theorem warn (line : String) : Leaves Machine.fixtures (Act.warn line) :=
  fun _ => rfl

end Leaves

/-! ## Starting programs -/

/-- Work that notes one command among the programs started, and leaves everything else but the tree and the outputs. -/
def Notes {α : Type} (c : Command) (x : Act α) : Prop :=
  ∀ m, (endOf (x m)).fixtures = (m.bearings, m.children ++ [c])

namespace Notes

variable {α β : Type} {c : Command} {x : Act α} {f : α → Act β}

theorem children (h : Notes c x) (m : Machine) : (endOf (x m)).children = m.children ++ [c] :=
  congrArg Prod.snd (h m)

theorem bearings (h : Notes c x) : Leaves Machine.bearings x :=
  fun m => congrArg Prod.fst (h m)

theorem during (a : Activity) (h : Notes c x) : Notes c (BootDisk.during a x) := by
  intro m
  rw [endOf_during, h m]

/-- What comes after leaves the note. -/
theorem bind (hx : Notes c x) (hf : ∀ a, Leaves Machine.fixtures (f a)) : Notes c (x >>= f) := by
  intro m
  have hfirst := hx m
  cases h : x m with
  | ok a m₁ =>
    rw [h, endOf_ok] at hfirst
    rw [bind_of_ok h, hf a m₁, hfirst]
  | error e m₁ =>
    rw [h, endOf_error] at hfirst
    rw [bind_of_error h, endOf_error, hfirst]

/-- What comes before, and ends well, notes nothing. -/
theorem after (hx : Leaves Machine.fixtures x) (hok : ∀ m, endedWell (x m) = true) (hf : ∀ a, Notes c (f a)) : Notes c (x >>= f) := by
  intro m
  obtain ⟨a, m₁, h⟩ := endedWell_iff.1 (hok m)
  have hbearings : m₁.bearings = m.bearings := congrArg Prod.fst (hx.of_ok h)
  have hchildren : m₁.children = m.children := congrArg Prod.snd (hx.of_ok h)
  rw [bind_of_ok h, hf a m₁, hbearings, hchildren]

end Notes

namespace Command

variable (programs : Programs) (c : Command)

theorem leaves_announce : Leaves Machine.fixtures c.announce := by
  unfold announce
  exact .ite (.print _) (.pure ())

theorem endedWell_announce (m : Machine) : endedWell (c.announce m) = true := by
  unfold announce
  split <;> rfl

/-- Every attempt to start a command is noted. -/
theorem notes_launch : Notes c (c.launch programs) := by
  intro m
  unfold launch
  dsimp only
  split
  · rfl
  · split <;> rfl

theorem notes_run : Notes c (c.run programs) := by
  unfold run
  exact .after c.leaves_announce c.endedWell_announce fun _ =>
    .bind (.during _ (c.notes_launch programs)) fun _ => .ite (.pure ()) (.fail _)

theorem notes_runShown : Notes c (c.runShown programs) := by
  unfold runShown
  exact .after c.leaves_announce c.endedWell_announce fun _ =>
    .bind (.during _ (c.notes_launch programs)) fun _ => .bind (fun _ => rfl) fun _ => .ite (.pure _) (.fail _)

/-- A command is started, ends well, and a file is at the path then. -/
def Makes (path : Path) (m : Machine) : Prop :=
  c.hasNul = false ∧ ∃ out err t, programs c m.surroundings m.tree = (.ended (.exited 0) out err, t) ∧ t.isFile m.cwd path = true

theorem isSuccess_iff {status : Status} : status.isSuccess = true ↔ status = .exited 0 := by
  cases status with
  | exited code => simp [Status.isSuccess]
  | killed signal => exact iff_of_false nofun nofun

/-- To show a command changes nothing that it is started with. -/
theorem announce_eq (m : Machine) : ∃ out, c.announce m = .ok () { m with out := out } := by
  unfold announce
  split
  · exact ⟨_, rfl⟩
  · exact ⟨m.out, rfl⟩

theorem launch_of_nul {m : Machine} (hnul : c.hasNul = true) :
    c.launch programs m = .error (.ofIo .nulInArgument) { m with children := m.children ++ [c] } :=
  if_pos hnul

theorem launch_of_failed {m : Machine} {e : OsError} {t : Tree} (hnul : c.hasNul = false)
    (h : programs c m.surroundings m.tree = (.failed e, t)) :
    c.launch programs m = .error (.ofIo (.os e)) { m with children := m.children ++ [c], tree := t } := by
  have hstart : ({ m with children := m.children ++ [c] } : Machine).surroundings = m.surroundings := rfl
  unfold launch
  simp only [hnul, hstart, h]
  rfl

theorem launch_of_ended {m : Machine} {status : Status} {out err : List UInt8} {t : Tree} (hnul : c.hasNul = false)
    (h : programs c m.surroundings m.tree = (.ended status out err, t)) :
    c.launch programs m = .ok (status, out, err) { m with children := m.children ++ [c], tree := t } := by
  have hstart : ({ m with children := m.children ++ [c] } : Machine).surroundings = m.surroundings := rfl
  unfold launch
  simp only [hnul, hstart, h]
  rfl

/-- A command that is run ends well if it is started and ends with code 0, and then the tree is what it has made of it. -/
theorem run_cases (m : Machine) :
    (∃ m', c.run programs m = .ok () m' ∧ c.hasNul = false ∧ m'.cwd = m.cwd ∧
        ∃ out err, programs c m.surroundings m.tree = (.ended (.exited 0) out err, m'.tree)) ∨
      (∃ e m', c.run programs m = .error e m' ∧
        ∀ out err t, c.hasNul = false → programs c m.surroundings m.tree ≠ (.ended (.exited 0) out err, t)) := by
  obtain ⟨text, hannounce⟩ := c.announce_eq m
  unfold run
  rw [bind_of_ok hannounce]
  cases hnul : c.hasNul with
  | true => exact Or.inr ⟨_, _, bind_of_error (during_of_error (launch_of_nul programs c hnul)), nofun⟩
  | false =>
    cases hprog : programs c m.surroundings m.tree with
    | mk launched t =>
      cases launched with
      | failed e =>
        exact Or.inr ⟨_, _, bind_of_error (during_of_error (launch_of_failed programs c (m := { m with out := text }) hnul hprog)), nofun⟩
      | ended status out err =>
        have hlaunch := launch_of_ended programs c (m := { m with out := text }) hnul hprog
        rw [bind_of_ok (during_eq_ok.2 hlaunch)]
        by_cases hs : status.isSuccess = true
        · refine Or.inl ⟨_, congrFun (if_pos hs) _, rfl, rfl, out, err, ?_⟩
          rw [isSuccess_iff.1 hs]
        · refine Or.inr ⟨_, _, congrFun (if_neg hs) _, ?_⟩
          intro out' err' t' _ heq
          cases heq
          exact hs rfl

end Command

end BootDisk
