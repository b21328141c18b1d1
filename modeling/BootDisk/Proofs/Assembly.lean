import BootDisk.Assembly
import BootDisk.Proofs.Container
import Mathlib.Algebra.Group.Nat.Defs

/-!
# What one assembly does

An assembly is four parts in a row (`assemble_eq`): the container is prepared, the cached kernel is forgotten, the boot image is built,
and the image is written. Each part has a statement that says all it can come to, and the outcome of the whole is put together from them.
The tools are any acts at all; what is assumed of them is that they leave the container's file alone where they are called
(`Assembly.Spares`).
-/

namespace BootDisk

namespace Assembly

/-! ## The parts -/

/-- Makes sure that the container is there. -/
def prepare (tools : Toolchain) (profile : Profile) (path : Path) (capacity : Nat) : Run Container.State := do
  Act.print s!"[image] preparing {path.text} ({profile.name} build)"
  let state ← Container.ensure tools path capacity
  Act.print s!"[image] {state.verb} disk container ({state.length} bytes)"
  return state

/-- Has the cached kernel forgotten. -/
def refresh (tools : Toolchain) : Run Unit := do
  during .invalidatingKernel (Run.call .invalidate tools.invalidate)
  Act.print "[image] building kernel and bootloader..."

/-- Has the boot image built. -/
def embed (tools : Toolchain) (profile : Profile) : Run Path :=
  Run.call (.embed profile) (tools.embed profile)

/-- Writes the boot image and reports. -/
def write (path : Path) (state : Container.State) (blob : Path) : Run Assembly := do
  let written ← Container.writeBlob path blob
  Act.print
    s!"[image] wrote {written.blobLength} bytes of {blob.text} at offset 0 ({written.containerLength} bytes total)"
  return ⟨path, state, blob, written⟩

/-- Everything that comes before the boot image is written. -/
def build (tools : Toolchain) (profile : Profile) (path : Path) (capacity : Nat) : Run (Container.State × Path) := do
  let state ← prepare tools profile path capacity
  refresh tools
  let blob ← embed tools profile
  return (state, blob)

variable {tools : Toolchain} {profile : Profile} {path blob : Path} {capacity : Nat} {state : Container.State}
variable {s s₁ s₂ s₃ : Session} {q : Place} {f : File}

/-- An assembly is its parts, one after the other. -/
theorem assemble_eq (tools : Toolchain) (profile : Profile) (path : Path) (capacity : Nat) :
    assemble tools profile path capacity =
      build tools profile path capacity >>= fun (state, blob) => write path state blob := by
  simp only [assemble, build, prepare, refresh, embed, write, bind_assoc, pure_bind]

/-- Where the boot image is built, the rest is to write it. -/
theorem assemble_of_build_ok (h : build tools profile path capacity s = .ok (state, blob) s₁) :
    assemble tools profile path capacity s = write path state blob s₁ := by
  rw [assemble_eq, bind_of_ok h]

/-- Where no boot image is built, the assembly ends. -/
theorem assemble_of_build_error {e : Failure} (h : build tools profile path capacity s = .error e s₁) :
    assemble tools profile path capacity s = .error e s₁ := by
  rw [assemble_eq, bind_of_error h]

/-! ## What the parts do -/

/-- Alike sessions have the same file at the path. -/
theorem file?_of_alike (h : s.Alike s₁) (path : Path) : s₁.machine.file? path = s.machine.file? path := by
  unfold Machine.file?
  rw [h.1, h.2.1]

/-- Preparing the container is making sure of it, but for what is written. -/
theorem prepare_run (tools : Toolchain) (profile : Profile) (path : Path) (capacity : Nat) (s : Session) :
    ∃ s₀, s.Alike s₀ ∧
      ((∃ state s' s₁, Container.ensure tools path capacity s₀ = .ok state s' ∧ s'.Alike s₁ ∧
          prepare tools profile path capacity s = .ok state s₁) ∨
        ∃ e s₁, Container.ensure tools path capacity s₀ = .error e s₁ ∧
          prepare tools profile path capacity s = .error e s₁) := by
  obtain ⟨s₀, h₀, ha₀⟩ := Act.print_toRun s!"[image] preparing {path.text} ({profile.name} build)" s
  refine ⟨s₀, ha₀, ?_⟩
  cases he : Container.ensure tools path capacity s₀ with
  | ok state s' =>
    obtain ⟨s₁, h₁, ha₁⟩ := Act.print_toRun s!"[image] {state.verb} disk container ({state.length} bytes)" s'
    exact Or.inl ⟨state, s', s₁, rfl, ha₁, (bind_of_ok h₀).trans ((bind_of_ok he).trans (bind_of_ok h₁))⟩
  | error e s₁ => exact Or.inr ⟨e, s₁, rfl, (bind_of_ok h₀).trans (bind_of_error he)⟩

/-- A container that is prepared was there and is as it was, or is new and all zeros. -/
theorem prepare_ok (hcreate : tools.create = Container.create) (h : prepare tools profile path capacity s = .ok state s₁) :
    (∃ q f, s.machine.file? path = some (q, f) ∧ s₁.machine.file? path = some (q, f) ∧ state = .reused f.content.length ∧
        s₁.calls = s.calls) ∨
      (s.machine.tree.stat s.machine.cwd path = .error (.os .noEntry) ∧ capacity ≤ maxFileLength ∧ state = .created capacity ∧
        (∃ q, s₁.machine.file? path = some (q, Container.new capacity)) ∧ s₁.calls = s.calls ++ [.create path capacity]) := by
  obtain ⟨s₀, ha₀, ⟨state', s', s₁', he, ha₁, hp⟩ | ⟨e, s₁', he, hp⟩⟩ := prepare_run tools profile path capacity s
  · rw [h] at hp
    injection hp with hstate hs
    subst hstate hs
    have hens := Container.ensured tools hcreate path capacity s₀
    rw [he] at hens
    rw [file?_of_alike ha₁, ha₁.2.2, ← file?_of_alike ha₀ path, ← ha₀.1, ← ha₀.2.1, ← ha₀.2.2]
    cases hens with
    | reused q f hf => exact Or.inl ⟨q, f, hf, hf, rfl, rfl⟩
    | created q m hn hc hf => exact Or.inr ⟨hn, hc, rfl, ⟨q, hf⟩, rfl⟩
  · rw [h] at hp
    cases hp

/-- Where no container can be prepared there was none, and nothing has changed, except that the creation may have been asked for and,
where no file can be so long, an empty file is there. -/
theorem prepare_error {e : Failure} (hcreate : tools.create = Container.create)
    (h : prepare tools profile path capacity s = .error e s₁) :
    s.machine.file? path = none ∧
      ((s.machine.tree.stat s.machine.cwd path ≠ .error (.os .noEntry) ∧ s.Alike s₁) ∨
        (s.machine.tree.stat s.machine.cwd path = .error (.os .noEntry) ∧ s₁.calls = s.calls ++ [.create path capacity] ∧
          ((s₁.machine.tree = s.machine.tree ∧ s₁.machine.cwd = s.machine.cwd) ∨
            (maxFileLength < capacity ∧ ∃ q, s₁.machine.file? path = some (q, .new newFileMode))))) := by
  obtain ⟨s₀, ha₀, ⟨state', s', s₁', he, ha₁, hp⟩ | ⟨e', s₁', he, hp⟩⟩ := prepare_run tools profile path capacity s
  · rw [h] at hp
    cases hp
  · rw [h] at hp
    injection hp with he' hs
    subst he' hs
    have hens := Container.ensured tools hcreate path capacity s₀
    rw [he] at hens
    have hnone : s.machine.tree.stat s.machine.cwd path = .error (.os .noEntry) → s.machine.file? path = none := by
      intro hn
      refine Machine.file?_eq_none.2 fun f hf => ?_
      rw [hn] at hf
      cases hf
    rw [← file?_of_alike ha₀ path] at *
    rw [← ha₀.1, ← ha₀.2.1, ← ha₀.2.2] at *
    cases hens with
    | refused _ hf hn => exact ⟨hf, Or.inl ⟨hn, ha₀⟩⟩
    | notCreated _ hn => exact ⟨hnone hn, Or.inr ⟨hn, rfl, Or.inl ⟨rfl, rfl⟩⟩⟩
    | notSized _ q m hn hc hf => exact ⟨hnone hn, Or.inr ⟨hn, rfl, Or.inr ⟨hc, q, hf⟩⟩⟩

/-- A container that is there is prepared as it is, and nothing is asked for. -/
theorem prepare_of_file (hcreate : tools.create = Container.create) (hf : s.machine.file? path = some (q, f)) (profile : Profile)
    (capacity : Nat) :
    ∃ s₁, prepare tools profile path capacity s = .ok (.reused f.content.length) s₁ ∧ s₁.machine.file? path = some (q, f) ∧
      s₁.calls = s.calls := by
  cases hp : prepare tools profile path capacity s with
  | error e s₁ =>
    rw [(prepare_error hcreate hp).1] at hf
    cases hf
  | ok state s₁ =>
    rcases prepare_ok hcreate hp with ⟨q', f', hs, hs₁, hst, hc⟩ | ⟨hn, -⟩
    · cases hs.symm.trans hf
      exact ⟨s₁, by rw [hst], hs₁, hc⟩
    · rw [Machine.stat_of_file? hf] at hn
      cases hn

/-- Where the container is prepared, a file is there. -/
theorem file?_of_prepare (hcreate : tools.create = Container.create) (h : prepare tools profile path capacity s = .ok state s₁) :
    ∃ q f, s₁.machine.file? path = some (q, f) := by
  rcases prepare_ok hcreate h with ⟨q, f, -, hf, -⟩ | ⟨-, -, -, ⟨q, hf⟩, -⟩
  · exact ⟨q, f, hf⟩
  · exact ⟨q, _, hf⟩

/-- Forgetting the kernel is the tool's doing, and on record. -/
theorem endOf_refresh (tools : Toolchain) (s : Session) (path : Path) :
    (endOf (refresh tools s)).calls = s.calls ++ [.invalidate] ∧
      (endOf (refresh tools s)).machine.file? path = (endOf (tools.invalidate s.machine)).file? path := by
  cases h : tools.invalidate s.machine with
  | ok v m =>
    obtain ⟨s', h', ha⟩ := Act.print_toRun "[image] building kernel and bootloader..." ⟨m, s.calls ++ [.invalidate]⟩
    have hr : refresh tools s = .ok () s' := (bind_of_ok (during_eq_ok.2 (Run.call_of_ok h))).trans h'
    rw [hr]
    exact ⟨ha.2.2, file?_of_alike ha path⟩
  | error e m =>
    have hr := bind_of_error (f := fun _ => (Act.print "[image] building kernel and bootloader...").toRun)
      (during_of_error (a := .invalidatingKernel) (Run.call_of_error (c := .invalidate) h))
    change refresh tools s = _ at hr
    rw [hr]
    exact ⟨rfl, rfl⟩

/-- Writing the boot image fails and changes nothing, if the image cannot be read or is longer than the container; any other image is
written over the start of the container. -/
theorem write_cases (h : s.machine.file? path = some (q, f)) (state : Container.State) (blob : Path) :
    ((∀ image, s.machine.tree.readAll s.machine.cwd blob = .ok image → f.content.length < image.length) ∧
        ∃ e, write path state blob s = .error e s) ∨
      ∃ image s', s.machine.tree.readAll s.machine.cwd blob = .ok image ∧ image.length ≤ f.content.length ∧
        write path state blob s = .ok ⟨path, state, blob, ⟨image.length, f.content.length⟩⟩ s' ∧ s'.calls = s.calls ∧
        s'.machine.file? path = some (q, { f with content := image.overwrite f.content }) := by
  rcases Container.writeBlob_cases h blob with ⟨hno, e, he⟩ | ⟨image, hread, hlen, hw⟩
  · exact Or.inl ⟨hno, e, bind_of_error (Act.toRun_of_error he)⟩
  · obtain ⟨s', h', ha⟩ := Act.print_toRun
      s!"[image] wrote {image.length} bytes of {blob.text} at offset 0 ({f.content.length} bytes total)"
      { s with machine := { s.machine with tree := s.machine.tree.put q (.file { f with content := image.overwrite f.content }) } }
    refine Or.inr ⟨image, s', hread, hlen, (bind_of_ok (Act.toRun_of_ok hw)).trans (bind_of_ok h'), ha.2.2, ?_⟩
    rw [file?_of_alike ha]
    exact Machine.file?_put h _

/-! ## The whole -/

/-- The tools leave the container's file alone, where one assembly calls them: to forget the kernel when the container is prepared, and to
build the boot image when the kernel is forgotten. -/
structure Spares (tools : Toolchain) (profile : Profile) (path : Path) (capacity : Nat) (s : Session) : Prop where
  invalidate : ∀ state s₁, prepare tools profile path capacity s = .ok state s₁ →
    (endOf (tools.invalidate s₁.machine)).file? path = s₁.machine.file? path
  embed : ∀ state s₁ s₂, prepare tools profile path capacity s = .ok state s₁ → refresh tools s₁ = .ok () s₂ →
    (endOf (tools.embed profile s₂.machine)).file? path = s₂.machine.file? path

/-- All that can happen before the boot image is written: one of the three parts fails and the others are not begun, or they end well. -/
inductive Built (tools : Toolchain) (profile : Profile) (path : Path) (capacity : Nat) (s : Session) :
    EStateM.Result Failure Session (Container.State × Path) → Prop where
  | unprepared (e : Failure) (s₁ : Session) : prepare tools profile path capacity s = .error e s₁ →
      Built tools profile path capacity s (.error e s₁)
  | unrefreshed (state : Container.State) (s₁ : Session) (e : Failure) (s₂ : Session) :
      prepare tools profile path capacity s = .ok state s₁ → refresh tools s₁ = .error e s₂ →
      Built tools profile path capacity s (.error e s₂)
  | unbuilt (state : Container.State) (s₁ s₂ : Session) (e : Failure) (s₃ : Session) :
      prepare tools profile path capacity s = .ok state s₁ → refresh tools s₁ = .ok () s₂ →
      embed tools profile s₂ = .error e s₃ → Built tools profile path capacity s (.error e s₃)
  | built (state : Container.State) (s₁ s₂ : Session) (blob : Path) (s₃ : Session) :
      prepare tools profile path capacity s = .ok state s₁ → refresh tools s₁ = .ok () s₂ →
      embed tools profile s₂ = .ok blob s₃ → Built tools profile path capacity s (.ok (state, blob) s₃)

theorem built (tools : Toolchain) (profile : Profile) (path : Path) (capacity : Nat) (s : Session) :
    Built tools profile path capacity s (build tools profile path capacity s) := by
  unfold build
  cases hp : prepare tools profile path capacity s with
  | error e s₁ =>
    rw [bind_of_error hp]
    exact .unprepared e s₁ hp
  | ok state s₁ =>
    rw [bind_of_ok hp]
    cases hr : refresh tools s₁ with
    | error e s₂ =>
      rw [bind_of_error hr]
      exact .unrefreshed state s₁ e s₂ hp hr
    | ok v s₂ =>
      rw [bind_of_ok hr]
      cases hb : embed tools profile s₂ with
      | error e s₃ =>
        rw [bind_of_error hb]
        exact .unbuilt state s₁ s₂ e s₃ hp hr hb
      | ok blob s₃ =>
        rw [bind_of_ok hb]
        exact .built state s₁ s₂ blob s₃ hp hr hb

/-! ### What is asked of the tools -/

/-- What is asked for first: the creation of the container where nothing is found. -/
def asked (path : Path) (capacity : Nat) (m : Machine) : List ToolCall :=
  match m.tree.stat m.cwd path with
  | .error (.os .noEntry) => [.create path capacity]
  | _ => []

theorem asked_of_noEntry (h : s.machine.tree.stat s.machine.cwd path = .error (.os .noEntry)) :
    asked path capacity s.machine = [.create path capacity] := by
  rw [asked, h]

theorem asked_of_ne (h : s.machine.tree.stat s.machine.cwd path ≠ .error (.os .noEntry)) : asked path capacity s.machine = [] := by
  unfold asked
  split
  · next h' => exact absurd h' h
  · rfl

theorem asked_of_file (h : s.machine.file? path = some (q, f)) : asked path capacity s.machine = [] := by
  refine asked_of_ne ?_
  rw [Machine.stat_of_file? h]
  nofun

/-- Preparing the container asks for its creation where nothing is found, and for nothing else. -/
theorem calls_of_prepare (hcreate : tools.create = Container.create) (profile : Profile) (path : Path) (capacity : Nat) (s : Session) :
    (endOf (prepare tools profile path capacity s)).calls = s.calls ++ asked path capacity s.machine := by
  cases hp : prepare tools profile path capacity s with
  | ok state s₁ =>
    rcases prepare_ok hcreate hp with ⟨q, f, hf, -, -, hc⟩ | ⟨hn, -, -, -, hc⟩
    · rw [endOf_ok, hc, asked_of_file hf, List.append_nil]
    · rw [endOf_ok, hc, asked_of_noEntry hn]
  | error e s₁ =>
    rcases (prepare_error hcreate hp).2 with ⟨hn, ha⟩ | ⟨hn, hc, -⟩
    · rw [endOf_error, ha.2.2, asked_of_ne hn, List.append_nil]
    · rw [endOf_error, hc, asked_of_noEntry hn]

/-- What is left of the session when the kernel has been forgotten, or not: the container's file, and one more call on record. -/
theorem after_refresh (h : Spares tools profile path capacity s) (hp : prepare tools profile path capacity s = .ok state s₁) :
    (endOf (refresh tools s₁)).machine.file? path = s₁.machine.file? path ∧
      (endOf (refresh tools s₁)).calls = s₁.calls ++ [.invalidate] := by
  obtain ⟨hc, hf⟩ := endOf_refresh tools s₁ path
  exact ⟨hf.trans (h.invalidate state s₁ hp), hc⟩

/-- What is left of the session when the boot image has been built, or not: the container's file, and two more calls on record. -/
theorem after_embed (h : Spares tools profile path capacity s) (hp : prepare tools profile path capacity s = .ok state s₁)
    (hr : refresh tools s₁ = .ok () s₂) :
    (endOf (embed tools profile s₂)).machine.file? path = s₁.machine.file? path ∧
      (endOf (embed tools profile s₂)).calls = s₁.calls ++ [.invalidate, .embed profile] := by
  obtain ⟨hf, hc⟩ := after_refresh h hp
  rw [hr] at hf hc
  have he := Run.endOf_call (c := .embed profile) (x := tools.embed profile) (s := s₂)
  change endOf (embed tools profile s₂) = _ at he
  rw [he]
  refine ⟨(h.embed state s₁ s₂ hp hr).trans hf, ?_⟩
  change s₂.calls ++ [.embed profile] = _
  rw [endOf_ok] at hc
  rw [hc, List.append_assoc, List.singleton_append]

/-- Writing the boot image asks nothing of the tools. -/
theorem calls_of_write (h : s.machine.file? path = some (q, f)) (state : Container.State) (blob : Path) :
    (endOf (write path state blob s)).calls = s.calls := by
  rcases write_cases h state blob with ⟨-, e, hw⟩ | ⟨image, s', -, -, hw, hc, -⟩
  · rw [hw, endOf_error]
  · rw [hw, endOf_ok, hc]

/-- What is asked of the tools comes in one order: the creation where nothing is found, then to forget the kernel, then to build the boot
image; and each is asked only if all before it ended well. -/
theorem calls_of_assemble (hcreate : tools.create = Container.create) (hspare : Spares tools profile path capacity s) :
    ∃ done, (endOf (assemble tools profile path capacity s)).calls = s.calls ++ asked path capacity s.machine ++ done ∧
      done <+: [.invalidate, .embed profile] ∧
      (.invalidate ∈ done ↔ ∃ state s₁, prepare tools profile path capacity s = .ok state s₁) ∧
      (.embed profile ∈ done ↔
        ∃ state s₁ s₂, prepare tools profile path capacity s = .ok state s₁ ∧ refresh tools s₁ = .ok () s₂) := by
  have hcalls := calls_of_prepare hcreate profile path capacity s
  have hb := built tools profile path capacity s
  generalize hbuild : build tools profile path capacity s = r at hb
  cases hb with
  | unprepared e s₁ hp =>
    rw [hp] at hcalls
    rw [assemble_of_build_error hbuild, hp]
    exact ⟨[], by rw [endOf_error, List.append_nil]; exact hcalls, List.nil_prefix, by simp, by simp⟩
  | unrefreshed state s₁ e s₂ hp hr =>
    have hc := (after_refresh hspare hp).2
    rw [hr] at hc
    rw [hp] at hcalls
    rw [assemble_of_build_error hbuild, hp]
    refine ⟨[.invalidate], by rw [← hcalls]; exact hc, ⟨[.embed profile], rfl⟩, by simp, ?_⟩
    constructor
    · intro h
      simp at h
    · rintro ⟨state', s₁', s₂', hp', hr'⟩
      cases hp'
      rw [hr] at hr'
      cases hr'
  | unbuilt state s₁ s₂ e s₃ hp hr he =>
    have hc := (after_embed hspare hp hr).2
    rw [he] at hc
    rw [hp] at hcalls
    rw [assemble_of_build_error hbuild, hp]
    exact ⟨[.invalidate, .embed profile], by rw [← hcalls]; exact hc, List.prefix_refl _, by simp,
      by simp only [List.mem_cons, or_true, true_or, true_iff]; exact ⟨state, s₁, s₂, rfl, hr⟩⟩
  | built state s₁ s₂ blob s₃ hp hr he =>
    obtain ⟨hf, hc⟩ := after_embed hspare hp hr
    obtain ⟨q, f, hf₁⟩ := file?_of_prepare hcreate hp
    rw [he] at hc hf
    rw [hp] at hcalls
    rw [assemble_of_build_ok hbuild, hp]
    refine ⟨[.invalidate, .embed profile], ?_, List.prefix_refl _, by simp,
      by simp only [List.mem_cons, or_true, true_or, true_iff]; exact ⟨state, s₁, s₂, rfl, hr⟩⟩
    rw [← hcalls]
    exact (calls_of_write (hf.trans hf₁) state blob).trans hc

/-! ### What becomes of the container -/

/-- An assembly that fails has prepared no container, or leaves the container it has prepared. -/
theorem of_error {e : Failure} {s' : Session} (hcreate : tools.create = Container.create)
    (hspare : Spares tools profile path capacity s) (h : assemble tools profile path capacity s = .error e s') :
    prepare tools profile path capacity s = .error e s' ∨
      ∃ state s₁, prepare tools profile path capacity s = .ok state s₁ ∧ s'.machine.file? path = s₁.machine.file? path := by
  have hb := built tools profile path capacity s
  rw [assemble_eq, bind_eq_error] at h
  rcases h with h | ⟨⟨state, blob⟩, s₃, h, hw⟩
  · rw [h] at hb
    cases hb with
    | unprepared _ _ hp => exact Or.inl hp
    | unrefreshed state s₁ _ _ hp hr =>
      have hf := (after_refresh hspare hp).1
      rw [hr] at hf
      exact Or.inr ⟨state, s₁, hp, hf⟩
    | unbuilt state s₁ s₂ _ _ hp hr he =>
      have hf := (after_embed hspare hp hr).1
      rw [he] at hf
      exact Or.inr ⟨state, s₁, hp, hf⟩
  · rw [h] at hb
    cases hb with
    | built _ s₁ s₂ _ _ hp hr he =>
      have hf := (after_embed hspare hp hr).1
      rw [he, endOf_ok] at hf
      change write path state blob s₃ = _ at hw
      obtain ⟨q, f, hf₁⟩ := file?_of_prepare hcreate hp
      rcases write_cases (hf.trans hf₁) state blob with ⟨-, e', hw'⟩ | ⟨image, s'', -, -, hw', -, -⟩
      · rw [hw] at hw'
        injection hw' with _ hs
        subst hs
        exact Or.inr ⟨state, s₁, hp, hf⟩
      · rw [hw] at hw'
        cases hw'

/-- An assembly that ends well has built a boot image that could be read and was no longer than the container, and has written it over
the start of the container it has prepared. -/
theorem of_ok {a : Assembly} {s' : Session} (hcreate : tools.create = Container.create)
    (hspare : Spares tools profile path capacity s) (h : assemble tools profile path capacity s = .ok a s') :
    ∃ state s₁ s₂ blob s₃ q old image, prepare tools profile path capacity s = .ok state s₁ ∧ refresh tools s₁ = .ok () s₂ ∧
      embed tools profile s₂ = .ok blob s₃ ∧ s₁.machine.file? path = some (q, old) ∧ s₃.machine.file? path = some (q, old) ∧
      s₃.machine.tree.readAll s₃.machine.cwd blob = .ok image ∧ image.length ≤ old.content.length ∧
      s'.machine.file? path = some (q, { old with content := image.overwrite old.content }) ∧
      a = ⟨path, state, blob, ⟨image.length, old.content.length⟩⟩ := by
  have hb := built tools profile path capacity s
  rw [assemble_eq, bind_eq_ok] at h
  obtain ⟨⟨state, blob⟩, s₃, h, hw⟩ := h
  rw [h] at hb
  cases hb with
  | built _ s₁ s₂ _ _ hp hr he =>
    have hf := (after_embed hspare hp hr).1
    rw [he, endOf_ok] at hf
    change write path state blob s₃ = _ at hw
    obtain ⟨q, old, hf₁⟩ := file?_of_prepare hcreate hp
    rcases write_cases (hf.trans hf₁) state blob with ⟨-, e, hw'⟩ | ⟨image, s'', hread, hlen, hw', -, hf'⟩
    · rw [hw] at hw'
      cases hw'
    · rw [hw] at hw'
      injection hw' with ha hs
      subst ha hs
      exact ⟨state, s₁, s₂, blob, s₃, q, old, image, hp, hr, he, hf₁, hf.trans hf₁, hread, hlen, hf', rfl⟩

/-- Where the parts before it end well, and the boot image can be read and is no longer than the container, an assembly ends well. -/
theorem ok_of_fits {image : Content} (hp : prepare tools profile path capacity s = .ok state s₁) (hr : refresh tools s₁ = .ok () s₂)
    (he : embed tools profile s₂ = .ok blob s₃) (hf : s₃.machine.file? path = some (q, f))
    (hread : s₃.machine.tree.readAll s₃.machine.cwd blob = .ok image) (hlen : image.length ≤ f.content.length) :
    ∃ a s', assemble tools profile path capacity s = .ok a s' := by
  have hbuild : build tools profile path capacity s = .ok (state, blob) s₃ :=
    (bind_of_ok hp).trans ((bind_of_ok hr).trans (bind_of_ok he))
  rw [assemble_of_build_ok hbuild]
  rcases write_cases hf state blob with ⟨hno, -⟩ | ⟨image', s', -, -, hw, -, -⟩
  · exact absurd hlen (Nat.not_le.2 (hno image hread))
  · exact ⟨_, s', hw⟩

/-- One assembly, whatever becomes of its parts. What is asked of the tools is, in order, the creation of the container where nothing is
found, to forget the kernel, and to build the boot image, each only if all before it ended well. If the assembly fails, a container that
was there is as it was, one that has been created is there with nothing but zeros, and where none could be prepared no file has changed.
If it ends well, the container was untouched when the boot image was built; the image as it was then stands at the start of the container
now, the old bytes behind it, and the report says so. It ends well exactly when its parts do and the boot image can be read and fits. -/
theorem assemble_outcome (tools : Toolchain) (profile : Profile) (path : Path) (capacity : Nat) (s : Session)
    (hcreate : tools.create = Container.create) (hcap : capacity < 2 ^ 63) (hspare : Spares tools profile path capacity s) :
    (∃ done, (endOf (assemble tools profile path capacity s)).calls = s.calls ++ asked path capacity s.machine ++ done ∧
      done <+: [.invalidate, .embed profile] ∧
      (.invalidate ∈ done ↔ ∃ state s₁, prepare tools profile path capacity s = .ok state s₁) ∧
      (.embed profile ∈ done ↔
        ∃ state s₁ s₂, prepare tools profile path capacity s = .ok state s₁ ∧ refresh tools s₁ = .ok () s₂)) ∧
    (∀ e s', assemble tools profile path capacity s = .error e s' →
      (∀ q f, s.machine.file? path = some (q, f) → s'.machine.file? path = some (q, f)) ∧
      (∀ n s₁, prepare tools profile path capacity s = .ok (.created n) s₁ →
        n = capacity ∧ ∃ q f, s'.machine.file? path = some (q, f) ∧ f.content.toList = List.replicate capacity 0) ∧
      (∀ e₁ s₁, prepare tools profile path capacity s = .error e₁ s₁ → s'.machine.tree = s.machine.tree)) ∧
    (∀ a s', assemble tools profile path capacity s = .ok a s' → ∃ state s₁ s₂ blob s₃ q old image new,
      prepare tools profile path capacity s = .ok state s₁ ∧ refresh tools s₁ = .ok () s₂ ∧ embed tools profile s₂ = .ok blob s₃ ∧
      ((s.machine.file? path = some (q, old) ∧ state = .reused old.content.length) ∨
        (s.machine.tree.stat s.machine.cwd path = .error (.os .noEntry) ∧ old.content.toList = List.replicate capacity 0 ∧
          state = .created capacity)) ∧
      s₃.machine.file? path = some (q, old) ∧ s₃.machine.tree.readAll s₃.machine.cwd blob = .ok image ∧
      image.length ≤ old.content.length ∧
      s'.machine.file? path = some (q, new) ∧ new.content.toList = image.toList ++ old.content.toList.drop image.length ∧
      new.mode = old.mode ∧ a = ⟨path, state, blob, ⟨image.length, old.content.length⟩⟩) ∧
    ((∃ a s', assemble tools profile path capacity s = .ok a s') ↔ ∃ state s₁ s₂ blob s₃ q f image,
      prepare tools profile path capacity s = .ok state s₁ ∧ refresh tools s₁ = .ok () s₂ ∧ embed tools profile s₂ = .ok blob s₃ ∧
      s₃.machine.file? path = some (q, f) ∧ s₃.machine.tree.readAll s₃.machine.cwd blob = .ok image ∧
      image.length ≤ f.content.length) := by
  refine ⟨calls_of_assemble hcreate hspare, ?_, ?_, ?_⟩
  · intro e s' h
    refine ⟨?_, ?_, ?_⟩
    · intro q f hf
      obtain ⟨s₁, hp, hf₁, -⟩ := prepare_of_file hcreate hf profile capacity
      rcases of_error hcreate hspare h with hp' | ⟨state, s₁', hp', hf'⟩
      · rw [hp] at hp'
        cases hp'
      · rw [hp] at hp'
        cases hp'
        exact hf'.trans hf₁
    · intro n s₁ hp
      rcases of_error hcreate hspare h with hp' | ⟨state, s₁', hp', hf'⟩
      · rw [hp] at hp'
        cases hp'
      · rw [hp] at hp'
        cases hp'
        rcases prepare_ok hcreate hp with ⟨_, _, -, -, hst, -⟩ | ⟨-, -, hst, ⟨q, hf₁⟩, -⟩
        · cases hst
        · exact ⟨Container.State.created.inj hst, q, _, hf'.trans hf₁, Content.toList_zeros capacity⟩
    · intro e₁ s₁ hp
      rcases of_error hcreate hspare h with hp' | ⟨state, s₁', hp', -⟩
      · rcases (prepare_error hcreate hp').2 with ⟨-, ha⟩ | ⟨-, -, ⟨ht, -⟩ | ⟨hlong, -⟩⟩
        · exact ha.1
        · exact ht
        · exact absurd hcap (by simp only [maxFileLength] at hlong; omega)
      · rw [hp] at hp'
        cases hp'
  · intro a s' h
    obtain ⟨state, s₁, s₂, blob, s₃, q, old, image, hp, hr, he, hf₁, hf₃, hread, hlen, hf', ha⟩ := of_ok hcreate hspare h
    refine ⟨state, s₁, s₂, blob, s₃, q, old, image, _, hp, hr, he, ?_, hf₃, hread, hlen, hf', Content.toList_overwrite _ _, rfl, ha⟩
    rcases prepare_ok hcreate hp with ⟨q', f', hs, hs₁, hst, -⟩ | ⟨hn, -, hst, ⟨q', hs₁⟩, -⟩
    · cases hs₁.symm.trans hf₁
      exact Or.inl ⟨hs, hst⟩
    · cases hs₁.symm.trans hf₁
      exact Or.inr ⟨hn, Content.toList_zeros capacity, hst⟩
  · constructor
    · rintro ⟨a, s', h⟩
      obtain ⟨state, s₁, s₂, blob, s₃, q, old, image, hp, hr, he, -, hf, hread, hlen, -, -⟩ := of_ok hcreate hspare h
      exact ⟨state, s₁, s₂, blob, s₃, q, old, image, hp, hr, he, hf, hread, hlen⟩
    · rintro ⟨state, s₁, s₂, blob, s₃, q, f, image, hp, hr, he, hf, hread, hlen⟩
      exact ok_of_fits hp hr he hf hread hlen

/-- Who does nothing leaves the container alone. -/
theorem spares_idle (blob : Path) (profile : Profile) (path : Path) (capacity : Nat) (s : Session) :
    Spares (.idle blob) profile path capacity s :=
  ⟨fun _ _ _ => rfl, fun _ _ _ _ _ => rfl⟩

/-- A session on a machine where there is nothing but a boot image of two bytes. -/
def sample : Session where
  machine :=
    { tree := ⟨[(["boot"], .file ⟨.ofList [1, 2], newFileMode, 0⟩)]⟩, cwd := [], searchPath := "", home := ⟨""⟩, clock := 0 }

theorem endedWell_sample : endedWell (assemble (.idle ⟨"boot"⟩) .release ⟨"disk"⟩ 4 sample) = true := by decide +kernel

/-- The assembly of the sample ends well, and the boot image is at the start of the container then. -/
theorem assemble_outcome_sample :
    (Toolchain.idle ⟨"boot"⟩).create = Container.create ∧ 4 < 2 ^ 63 ∧ Spares (.idle ⟨"boot"⟩) .release ⟨"disk"⟩ 4 sample ∧
      ∃ a s' q new image old, assemble (.idle ⟨"boot"⟩) .release ⟨"disk"⟩ 4 sample = .ok a s' ∧
        s'.machine.file? ⟨"disk"⟩ = some (q, new) ∧ new.content.toList = Content.toList image ++ old := by
  have hspare := spares_idle ⟨"boot"⟩ .release ⟨"disk"⟩ 4 sample
  obtain ⟨-, -, hok, -⟩ := assemble_outcome (.idle ⟨"boot"⟩) .release ⟨"disk"⟩ 4 sample rfl (by decide) hspare
  obtain ⟨a, s', h⟩ := endedWell_iff.1 endedWell_sample
  obtain ⟨state, s₁, s₂, blob, s₃, q, old, image, new, -, -, -, -, -, -, -, hf, hb, -, -⟩ := hok a s' h
  exact ⟨rfl, by decide, hspare, a, s', q, new, image, _, h, hf, hb⟩

end Assembly

end BootDisk
