import BootDisk.CommandLine
import BootDisk.Proofs.Assembly
import BootDisk.Proofs.Frame
import BootDisk.Proofs.Staging.Rebuild

/-!
# What a task asks its toolchain for

Every call of a toolchain is on record, whatever comes of it. Work that asks only for what is allowed (`Asks`) is put together from work that
does; from this it is read off what a staging asks for, and what an assembly does.
-/

namespace BootDisk

/-- Work that, whatever comes of it, adds only such calls to the record as are allowed. -/
def Asks {α : Type} (allowed : ToolCall → Prop) (x : Run α) : Prop :=
  ∀ s, ∃ new, (endOf (x s)).calls = s.calls ++ new ∧ ∀ c ∈ new, allowed c

namespace Asks

variable {α β γ : Type} {allowed allowed' : ToolCall → Prop} {x : Run α} {f : α → Run β}

/-- Work that leaves the record as it is asks for nothing. -/
theorem of_leaves (h : Leaves Session.calls x) : Asks allowed x :=
  fun s => ⟨[], by rw [h s, List.append_nil], nofun⟩

theorem pure (a : α) : Asks allowed (Pure.pure a : Run α) :=
  of_leaves (.pure a)

theorem fail (c : Cause) : Asks allowed (BootDisk.fail c : Run α) :=
  of_leaves (.fail c)

theorem toRun (y : Act α) : Asks allowed y.toRun := by
  refine of_leaves fun s => ?_
  rw [Act.endOf_toRun]

theorem lift (y : Act α) : Asks allowed (liftM y : Run α) :=
  toRun y

theorem call (y : Act α) {c : ToolCall} (h : allowed c) : Asks allowed (Run.call c y) := by
  intro s
  rw [Run.endOf_call]
  exact ⟨[c], rfl, fun _ hc => List.mem_singleton.1 hc ▸ h⟩

theorem during (a : Activity) (h : Asks allowed x) : Asks allowed (BootDisk.during a x) := by
  intro s
  rw [endOf_during]
  exact h s

theorem bind (hx : Asks allowed x) (hf : ∀ a, Asks allowed (f a)) : Asks allowed (x >>= f) := by
  intro s
  obtain ⟨new, hnew, hallowed⟩ := hx s
  cases h : x s with
  | error e s₁ =>
    rw [h, endOf_error] at hnew
    exact ⟨new, by rw [bind_of_error h, endOf_error, hnew], hallowed⟩
  | ok a s₁ =>
    rw [h, endOf_ok] at hnew
    obtain ⟨new', hnew', hallowed'⟩ := hf a s₁
    refine ⟨new ++ new', by rw [bind_of_ok h, hnew', hnew, List.append_assoc], fun c hc => ?_⟩
    exact (List.mem_append.1 hc).elim (hallowed c) (hallowed' c)

theorem ite {c : Prop} [Decidable c] {y : Run α} (hx : c → Asks allowed x) (hy : Asks allowed y) :
    Asks allowed (if c then x else y) := by
  split
  · next hc => exact hx hc
  · exact hy

/-- Work over a list asks for what the work on its items asks for. -/
theorem mapM {g : γ → Run β} (h : ∀ c, Asks allowed (g c)) (cs : List γ) : Asks allowed (cs.mapM g) := by
  induction cs with
  | nil =>
    rw [List.mapM_nil]
    exact .pure []
  | cons c cs ih =>
    rw [List.mapM_cons]
    exact .bind (h c) fun _ => .bind ih fun _ => .pure _

theorem mono (h : Asks allowed x) (himp : ∀ c, allowed c → allowed' c) : Asks allowed' x := by
  intro s
  obtain ⟨new, hnew, hallowed⟩ := h s
  exact ⟨new, hnew, fun c hc => himp c (hallowed c hc)⟩

end Asks

/-- The calls of a staging: compiling, and stripping where the host can. -/
def ToolCall.OfStage (tools : Toolchain) : ToolCall → Prop
  | .compile _ _ => True
  | .strip _ => tools.matchesHost = true
  | _ => False

/-- The calls of an assembly: creating the container, forgetting the kernel, and building the boot image. -/
def ToolCall.OfImage : ToolCall → Prop
  | .create _ _ | .invalidate | .embed _ => True
  | _ => False

/-- What a staging asks for. -/
theorem Staging.asks_rebuild (tools : Toolchain) (profile : Profile) (sourceDir installDir : Path) :
    Asks (ToolCall.OfStage tools) (rebuild tools profile sourceDir installDir) := by
  have hstage (q : Program) : Asks (ToolCall.OfStage tools) (stageProgram tools profile installDir q) :=
    .bind (.lift _) fun _ => .bind (.lift _) fun _ => .bind (.during _ (.call _ trivial)) fun _ => .bind (.lift _) fun _ => .pure _
  have hstrip (installed : List Installed) : Asks (ToolCall.OfStage tools) (strip tools installed) :=
    .ite (fun hhost => .bind (.lift _) fun _ => .bind (.call _ hhost) fun _ => .pure _) (.bind (.lift _) fun _ => .pure _)
  exact .bind (.toRun _) fun row => .ite (fun _ => .bind (.lift _) fun _ => .pure _) <|
    .bind (.during _ (.toRun _)) fun _ => .bind (.mapM hstage row) fun _ => .bind (hstrip _) fun _ => .bind (.lift _) fun _ => .pure _

/-- Putting a staging on record asks for nothing more. -/
theorem Project.asks_stage (p : Project) (tools : Toolchain) : Asks (ToolCall.OfStage tools) (p.stage tools) :=
  .bind (Staging.asks_rebuild _ _ _ _) fun _ =>
    .ite (fun _ => .bind (.toRun _) fun _ => .bind (.lift _) fun _ => .pure _) (.pure _)

/-- What having a container asks for. -/
theorem Container.asks_ensure (tools : Toolchain) (path : Path) (capacity : Nat) : Asks ToolCall.OfImage (ensure tools path capacity) := by
  have hnew : Asks ToolCall.OfImage (ensure.create tools path capacity) :=
    .bind (.call _ trivial) fun _ => .bind (.during _ (.toRun _)) fun _ => .ite (fun _ => .pure _) (.fail _)
  intro s
  unfold ensure
  split
  · exact Asks.pure _ s
  · exact Asks.fail _ s
  · exact hnew s
  · exact ⟨[], (List.append_nil _).symm, nofun⟩

/-- What an assembly asks for. -/
theorem Project.asks_assemble (p : Project) (tools : Toolchain) : Asks ToolCall.OfImage (p.assemble tools) := by
  unfold assemble
  split
  · exact .bind (.lift _) fun _ => .bind (Container.asks_ensure _ _ _) fun _ => .bind (.lift _) fun _ =>
      .bind (.during _ (.call _ trivial)) fun _ => .bind (.lift _) fun _ => .bind (.call _ trivial) fun _ =>
      .bind (.lift _) fun _ => .bind (.lift _) fun _ => .pure _
  · exact .fail _

/-- The calls that a task makes. -/
def Task.Allows (t : Task) (tools : Toolchain) (c : ToolCall) : Prop :=
  match t with
  | .stage => c.OfStage tools
  | .image => c.OfImage
  | .all => c.OfStage tools ∨ c.OfImage
  | .qemu | .check => False

/-- What a task asks the toolchain of its project for. -/
theorem Task.asks_perform (programs : Programs) (t : Task) (p : Project) (settings : Settings) :
    Asks (t.Allows (p.toolchain programs)) (t.perform programs p settings) := by
  unfold Task.perform
  cases t with
  | stage => exact .bind (p.asks_stage _) fun _ => .pure _
  | image => exact .bind (p.asks_assemble _) fun _ => .pure _
  | all =>
    exact .bind ((p.asks_stage _).mono fun _ => Or.inl) fun _ => .bind ((p.asks_assemble _).mono fun _ => Or.inr) fun _ => .pure _
  | qemu => exact .toRun _
  | check => exact .toRun _

end BootDisk
