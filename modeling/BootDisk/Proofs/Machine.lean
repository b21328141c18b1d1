import BootDisk.Toolchain.Basic

/-!
# How work proceeds

What a sequence of acts comes to, told part by part: it ends well exactly when every part does, and it fails where the first part does.
What has changed by then stays, so the state at the end (`endOf`) is spoken of for both outcomes.
-/

namespace BootDisk

/-- The state that work leaves behind, whatever came of it. -/
def endOf {ε σ α : Type} : EStateM.Result ε σ α → σ
  | .ok _ s => s
  | .error _ s => s

/-- Whether work ended well. -/
def endedWell {ε σ α : Type} : EStateM.Result ε σ α → Bool
  | .ok _ _ => true
  | .error _ _ => false

/-- What work that ended well came to. -/
def valueOf {ε σ α : Type} : EStateM.Result ε σ α → Option α
  | .ok v _ => some v
  | .error _ _ => none

theorem endedWell_iff {ε σ α : Type} {r : EStateM.Result ε σ α} : endedWell r = true ↔ ∃ v s, r = .ok v s := by
  cases r with
  | ok v s => exact iff_of_true rfl ⟨v, s, rfl⟩
  | error e s => exact iff_of_false nofun nofun

theorem endedWell_eq_false_iff {ε σ α : Type} {r : EStateM.Result ε σ α} : endedWell r = false ↔ ∃ e s, r = .error e s := by
  cases r with
  | ok v s => exact iff_of_false nofun nofun
  | error e s => exact iff_of_true rfl ⟨e, s, rfl⟩

theorem eq_of_valueOf {ε σ α : Type} {r : EStateM.Result ε σ α} {v w : α} {s : σ} (h : r = .ok v s) (hv : valueOf r = some w) : v = w := by
  rw [h] at hv
  exact Option.some.inj hv

/-- Work of whose value something is known has ended well, where it has ended. -/
theorem exists_of_valueOf {ε σ α β : Type} {r : EStateM.Result ε σ α} {f : α → β} {b : β} (h : (valueOf r).map f = some b) :
    ∃ v, r = .ok v (endOf r) ∧ f v = b := by
  cases r with
  | ok v s => exact ⟨v, rfl, Option.some.inj h⟩
  | error e s => cases h

section Sequence

variable {ε σ α β : Type} {x : EStateM ε σ α} {f : α → EStateM ε σ β} {s s' s'' : σ}

@[simp] theorem endOf_ok (a : α) (s : σ) : endOf (.ok a s : EStateM.Result ε σ α) = s := rfl

@[simp] theorem endOf_error (e : ε) (s : σ) : endOf (.error e s : EStateM.Result ε σ α) = s := rfl

/-- After a part that ended well the rest goes on from where it ended. -/
theorem bind_of_ok {a : α} (h : x s = .ok a s') : (x >>= f) s = f a s' := by
  change EStateM.bind x f s = f a s'
  rw [EStateM.bind, h]

/-- After a part that failed nothing follows. -/
theorem bind_of_error {e : ε} (h : x s = .error e s') : (x >>= f) s = .error e s' := by
  change EStateM.bind x f s = .error e s'
  rw [EStateM.bind, h]

/-- A sequence ends well exactly when its first part does and the rest does from there. -/
theorem bind_eq_ok {b : β} : (x >>= f) s = .ok b s'' ↔ ∃ a s', x s = .ok a s' ∧ f a s' = .ok b s'' := by
  constructor
  · intro h
    cases hx : x s with
    | ok a s' => exact ⟨a, s', rfl, by rw [← h, bind_of_ok hx]⟩
    | error e s' =>
      rw [bind_of_error hx] at h
      cases h
  · rintro ⟨a, s', hx, hf⟩
    rw [bind_of_ok hx, hf]

/-- A sequence fails exactly when its first part does, or when that ends well and the rest fails from there. -/
theorem bind_eq_error {e : ε} :
    (x >>= f) s = .error e s'' ↔ x s = .error e s'' ∨ ∃ a s', x s = .ok a s' ∧ f a s' = .error e s'' := by
  constructor
  · intro h
    cases hx : x s with
    | ok a s' => exact Or.inr ⟨a, s', rfl, by rw [← h, bind_of_ok hx]⟩
    | error e' s' =>
      rw [bind_of_error hx] at h
      injection h with h₁ h₂
      exact Or.inl (by rw [h₁, h₂])
  · rintro (hx | ⟨a, s', hx, hf⟩)
    · exact bind_of_error hx
    · rw [bind_of_ok hx, hf]

/-- What a part comes to may be forgotten. -/
theorem endOf_bind_pure (y : EStateM ε σ α) (b : β) (s : σ) : endOf ((y >>= fun _ => pure b) s) = endOf (y s) := by
  cases h : y s with
  | ok a s' =>
    rw [bind_of_ok h]
    rfl
  | error e s' =>
    rw [bind_of_error h]
    rfl

theorem pure_run (a : α) (s : σ) : (pure a : EStateM ε σ α) s = .ok a s := rfl

/-- Work over a list ends well exactly when the work on its first item does and the work on the others does from there. -/
theorem mapM_cons_eq_ok {γ δ : Type} {g : γ → EStateM ε σ δ} {c : γ} {cs : List γ} {ds : List δ} :
    (c :: cs).mapM g s = .ok ds s'' ↔ ∃ d s' rest, g c s = .ok d s' ∧ cs.mapM g s' = .ok rest s'' ∧ ds = d :: rest := by
  rw [List.mapM_cons, bind_eq_ok]
  constructor
  · rintro ⟨d, s', h, h'⟩
    obtain ⟨rest, s₂, h₂, h₃⟩ := bind_eq_ok.1 h'
    rw [pure_run] at h₃
    injection h₃ with h₃ h₄
    exact ⟨d, s', rest, h, by rw [h₂, h₄], h₃.symm⟩
  · rintro ⟨d, s', rest, h, h', rfl⟩
    exact ⟨d, s', h, bind_eq_ok.2 ⟨rest, s'', h', rfl⟩⟩

/-- Work over a list fails where the work on an item does, after the work on those before it has ended well. -/
theorem mapM_of_error {γ δ : Type} {g : γ → EStateM ε σ δ} {c : γ} {before : List γ} (after : List γ) {ds : List δ} {e : ε}
    (h : before.mapM g s = .ok ds s') (hc : g c s' = .error e s'') : (before ++ c :: after).mapM g s = .error e s'' := by
  induction before generalizing s ds with
  | nil =>
    rw [List.mapM_nil, pure_run] at h
    cases h
    rw [List.nil_append, List.mapM_cons]
    exact bind_of_error hc
  | cons b before ih =>
    obtain ⟨d, s₁, rest, hb, hrest, -⟩ := mapM_cons_eq_ok.1 h
    rw [List.cons_append, List.mapM_cons]
    exact (bind_of_ok hb).trans (bind_of_error (ih hrest))

/-- Where work over a list fails, it is at an item, after the work on those before it has ended well. -/
theorem mapM_eq_error {γ δ : Type} {g : γ → EStateM ε σ δ} {cs : List γ} {e : ε} (h : cs.mapM g s = .error e s'') :
    ∃ before c after ds s', cs = before ++ c :: after ∧ before.mapM g s = .ok ds s' ∧ g c s' = .error e s'' := by
  induction cs generalizing s with
  | nil =>
    rw [List.mapM_nil, pure_run] at h
    cases h
  | cons c cs ih =>
    rw [List.mapM_cons] at h
    rcases bind_eq_error.1 h with hc | ⟨d, s₁, hc, hrest⟩
    · exact ⟨[], c, cs, [], s, rfl, rfl, hc⟩
    · rcases bind_eq_error.1 hrest with hcs | ⟨ds, s₂, -, hpure⟩
      · obtain ⟨before, c', after, ds, s', rfl, hbefore, hfail⟩ := ih hcs
        exact ⟨c :: before, c', after, d :: ds, s', rfl, mapM_cons_eq_ok.2 ⟨d, s₁, ds, hc, hbefore, rfl⟩, hfail⟩
      · cases hpure

end Sequence

section Telling

variable {σ α : Type} {a : Activity} {x : EStateM Failure σ α} {s s' : σ}

/-- Telling what was being done changes nothing in work that ends well. -/
theorem during_eq_ok {v : α} : during a x s = .ok v s' ↔ x s = .ok v s' := by
  unfold during
  cases x s <;> simp

theorem during_of_error {f : Failure} (h : x s = .error f s') : during a x s = .error (f.during a) s' := by
  rw [during, h]

theorem endOf_during : endOf (during a x s) = endOf (x s) := by
  unfold during
  cases x s <;> rfl

end Telling

namespace Act

section Calls

variable {α : Type} {question : Tree → Place → Except IoError α} {m m' : Machine} {t : Tree} {v : α}

theorem files_of_ok (call : Place → FileCall α) (h : call m.cwd m.tree = .ok v t) : files call m = .ok v { m with tree := t } := by
  rw [files, h]

theorem files_of_error (call : Place → FileCall α) {e : IoError} (h : call m.cwd m.tree = .error e t) :
    files call m = .error (.ofIo e) { m with tree := t } := by
  rw [files, h]

theorem files_eq_ok (call : Place → FileCall α) :
    files call m = .ok v m' ↔ ∃ t, call m.cwd m.tree = .ok v t ∧ m' = { m with tree := t } := by
  unfold files
  cases call m.cwd m.tree with
  | ok v' t =>
    constructor
    · intro h
      cases h
      exact ⟨t, rfl, rfl⟩
    · rintro ⟨t', h, rfl⟩
      cases h
      rfl
  | error e t => exact ⟨nofun, nofun⟩

theorem endOf_files (call : Place → FileCall α) (m : Machine) : endOf (files call m) = { m with tree := endOf (call m.cwd m.tree) } := by
  unfold files
  cases call m.cwd m.tree <;> rfl

/-- A look that is answered changes nothing. -/
theorem look_eq_ok : look question m = .ok v m' ↔ question m.tree m.cwd = .ok v ∧ m' = m := by
  unfold look
  cases question m.tree m.cwd <;> simp [eq_comm]

theorem look_of_ok (h : question m.tree m.cwd = .ok v) : look question m = .ok v m :=
  look_eq_ok.2 ⟨h, rfl⟩

theorem look_of_error {e : IoError} (h : question m.tree m.cwd = .error e) : look question m = .error (.ofIo e) m := by
  rw [look, h]

end Calls

variable {α : Type} {x : Act α} {s : Session} {m : Machine}

theorem toRun_of_ok {v : α} (h : x s.machine = .ok v m) : x.toRun s = .ok v { s with machine := m } := by
  rw [toRun, h]

theorem toRun_of_error {f : Failure} (h : x s.machine = .error f m) : x.toRun s = .error f { s with machine := m } := by
  rw [toRun, h]

/-- An act ends well in a session exactly when it does on the session's machine, and then nothing but the machine has changed. -/
theorem toRun_eq_ok {v : α} {s' : Session} :
    x.toRun s = .ok v s' ↔ ∃ m, x s.machine = .ok v m ∧ s' = { s with machine := m } := by
  unfold toRun
  cases x s.machine with
  | ok v' m =>
    constructor
    · intro h
      injection h with h₁ h₂
      exact ⟨m, by rw [h₁], h₂.symm⟩
    · rintro ⟨m', h, rfl⟩
      injection h with h₁ h₂
      rw [h₁, h₂]
  | error f m => simp

theorem endOf_toRun : endOf (x.toRun s) = { s with machine := endOf (x s.machine) } := by
  unfold toRun
  cases x s.machine <;> rfl

end Act

/-- The sessions have the same files, as seen from the same directory, and the same calls on record. -/
def Session.Alike (s s' : Session) : Prop :=
  s'.machine.tree = s.machine.tree ∧ s'.machine.cwd = s.machine.cwd ∧ s'.calls = s.calls

/-- Writing a line ends well, and nothing but what was written changes. -/
theorem Act.print_toRun (line : String) (s : Session) : ∃ s', (Act.print line).toRun s = .ok () s' ∧ s.Alike s' :=
  ⟨_, rfl, rfl, rfl, rfl⟩

theorem Session.Alike.trans {s s' s'' : Session} (h : s.Alike s') (h' : s'.Alike s'') : s.Alike s'' :=
  ⟨h'.1.trans h.1, h'.2.1.trans h.2.1, h'.2.2.trans h.2.2⟩

/-- Writing a line to the standard error output ends well, and nothing but what was written changes. -/
theorem Act.warn_toRun (line : String) (s : Session) : ∃ s', (Act.warn line).toRun s = .ok () s' ∧ s.Alike s' :=
  ⟨_, rfl, rfl, rfl, rfl⟩

namespace Run

variable {α : Type} {c : ToolCall} {x : Act α} {s s' : Session} {m : Machine}

/-- A call is on record whatever comes of it. -/
theorem call_of_ok {v : α} (h : x s.machine = .ok v m) : call c x s = .ok v ⟨m, s.calls ++ [c]⟩ :=
  Act.toRun_of_ok (s := { s with calls := s.calls ++ [c] }) h

theorem call_of_error {f : Failure} (h : x s.machine = .error f m) : call c x s = .error f ⟨m, s.calls ++ [c]⟩ :=
  Act.toRun_of_error (s := { s with calls := s.calls ++ [c] }) h

theorem call_eq_ok {v : α} : call c x s = .ok v s' ↔ ∃ m, x s.machine = .ok v m ∧ s' = ⟨m, s.calls ++ [c]⟩ :=
  Act.toRun_eq_ok (s := { s with calls := s.calls ++ [c] })

theorem endOf_call : endOf (call c x s) = ⟨endOf (x s.machine), s.calls ++ [c]⟩ :=
  Act.endOf_toRun (s := { s with calls := s.calls ++ [c] })

end Run

/-- A toolchain that does nothing and says that everything it is asked for is at one path. -/
def Toolchain.idle (blob : Path) : Toolchain where
  compile := fun _ _ => pure blob
  strip := fun _ => pure ()
  invalidate := pure ()
  embed := fun _ => pure blob
  matchesHost := true

/-- A toolchain that fails at whatever it is asked for. -/
def Toolchain.failing : Toolchain where
  compile := fun _ _ => fail (.reported "failed")
  strip := fun _ => fail (.reported "failed")
  invalidate := fail (.reported "failed")
  embed := fun _ => fail (.reported "failed")
  matchesHost := true

end BootDisk
