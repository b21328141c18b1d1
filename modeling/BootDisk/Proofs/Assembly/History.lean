import BootDisk.Proofs.Assembly
import Mathlib.Data.List.Chain

/-!
# What a container goes through

Any number of assemblies in one container, each with its own tools, profile and capacity. `sessions` is what can be looked at on the way:
the session after each part that is come to. From the first of these in which a file is at the path, the file stays where it is and as
long as it is, and nothing asks for a creation any more (`Keeps`); and in the end each of its bytes is that of the last boot image written
that is long enough to reach it (`Overlaid`).
-/

namespace BootDisk

namespace Assembly

/-- What one assembly is made with, the path of the container apart. -/
structure Request where
  tools : Toolchain
  profile : Profile
  capacity : Nat

namespace Request

variable (r : Request) (path : Path) (s : Session)

/-- The assembly. -/
def run : EStateM.Result Failure Session Assembly :=
  assemble r.tools r.profile path r.capacity s

/-- The sessions in which the assembly can be looked at: after the container has been prepared, after the kernel has been forgotten, after
the boot image has been built, and at the end, as far as it gets. -/
def moments : List Session :=
  match prepare r.tools r.profile path r.capacity s with
  | .error _ s₁ => [s₁]
  | .ok _ s₁ =>
    match refresh r.tools s₁ with
    | .error _ s₂ => [s₁, s₂]
    | .ok _ s₂ =>
      match embed r.tools r.profile s₂ with
      | .error _ s₃ => [s₁, s₂, s₃]
      | .ok _ s₃ => [s₁, s₂, s₃, endOf (r.run path s)]

/-- The boot image of an assembly that ends well, with the bytes it has when it is built. -/
def image? : Option Content :=
  match r.run path s, build r.tools r.profile path r.capacity s with
  | .ok _ _, .ok (_, blob) s₃ => (s₃.machine.tree.readAll s₃.machine.cwd blob).toOption
  | _, _ => none

/-- The container is created natively, and the tools leave it alone. -/
def Gentle : Prop :=
  r.tools.create = Container.create ∧ Spares r.tools r.profile path r.capacity s

end Request

/-- The session after all assemblies. -/
def after (path : Path) (rs : List Request) (s : Session) : Session :=
  rs.foldl (fun s r => endOf (r.run path s)) s

/-- The sessions in which the assemblies can be looked at. -/
def sessions (path : Path) : List Request → Session → List Session
  | [], _ => []
  | r :: rs, s => r.moments path s ++ sessions path rs (endOf (r.run path s))

/-- The boot images of the assemblies that end well, in order. -/
def images (path : Path) : List Request → Session → List Content
  | [], _ => []
  | r :: rs, s => (r.image? path s).toList ++ images path rs (endOf (r.run path s))

/-- All assemblies are gentle with the container. -/
def Undisturbed (path : Path) : List Request → Session → Prop
  | [], _ => True
  | r :: rs, s => r.Gentle path s ∧ Undisturbed path rs (endOf (r.run path s))

/-- The byte that the last of the images that reach an offset has there. -/
def lastWritten (images : List Content) (i : Nat) : Option UInt8 :=
  images.reverse.findSome? fun c => c.toList[i]?

/-! ## Bytes -/

/-- The second file is as long as the first, and each of its bytes is that of the last image that reaches it, or the first file's where
none does. -/
def Overlaid (images : List Content) (f g : File) : Prop :=
  g.content.length = f.content.length ∧
    ∀ i, i < f.content.length → g.content.toList[i]? = (lastWritten images i).or f.content.toList[i]?

section Bytes

variable {cs cs' : List Content} {f g k : File}

theorem lastWritten_append (cs cs' : List Content) (i : Nat) :
    lastWritten (cs ++ cs') i = (lastWritten cs' i).or (lastWritten cs i) := by
  rw [lastWritten, List.reverse_append, List.findSome?_append]
  rfl

theorem Overlaid.refl (f : File) : Overlaid [] f f :=
  ⟨rfl, fun _ _ => rfl⟩

theorem Overlaid.trans (h₁ : Overlaid cs f g) (h₂ : Overlaid cs' g k) : Overlaid (cs ++ cs') f k := by
  refine ⟨h₂.1.trans h₁.1, fun i hi => ?_⟩
  rw [h₂.2 i (by rw [h₁.1]; exact hi), h₁.2 i hi, lastWritten_append, Option.or_assoc]

/-- Writing an image over the start of a file is overlaying the one image. -/
theorem overlaid_overwrite {image : Content} (hlen : image.length ≤ f.content.length) :
    Overlaid [image] f { f with content := image.overwrite f.content } := by
  have hl := image.length_toList
  refine ⟨Content.length_overwrite hlen, fun i hi => ?_⟩
  change (image.overwrite f.content).toList[i]? = (lastWritten [image] i).or f.content.toList[i]?
  have hw : lastWritten [image] i = image.toList[i]? := by
    cases h : image.toList[i]? <;> simp [lastWritten, h]
  rw [hw, Content.toList_overwrite]
  by_cases hi' : i < image.length
  · rw [List.getElem?_append_left (by omega), List.getElem?_eq_getElem (by omega), Option.some_or]
  · have hnone : image.toList[i]? = none := List.getElem?_eq_none (by omega)
    rw [List.getElem?_append_right (by omega), hnone, Option.none_or, List.getElem?_drop]
    congr 1
    omega

end Bytes

/-! ## One assembly -/

section OneAssembly

variable {r : Request} {path : Path} {s s₁ : Session} {q : Place} {f : File}

/-- What a run has of an image is what it wrote. -/
theorem Request.image?_of_error {e : Failure} {s' : Session} (h : r.run path s = .error e s') : r.image? path s = none := by
  rw [image?, h]

theorem Request.image?_of_ok {a : Assembly} {s' s₃ : Session} {state : Container.State} {blob : Path} {image : Content}
    (h : r.run path s = .ok a s') (hb : build r.tools r.profile path r.capacity s = .ok (state, blob) s₃)
    (hread : s₃.machine.tree.readAll s₃.machine.cwd blob = .ok image) : r.image? path s = some image := by
  simp only [image?, h, hb, hread, Except.toOption]

/-- A file that is there when the preparation is over is there in the end, with the image over it if the assembly ends well. -/
theorem run_overlaid (hg : r.Gentle path s)
    (hf : (endOf (prepare r.tools r.profile path r.capacity s)).machine.file? path = some (q, f)) :
    ∃ g, (endOf (r.run path s)).machine.file? path = some (q, g) ∧ Overlaid (r.image? path s).toList f g := by
  obtain ⟨hcreate, hspare⟩ := hg
  cases h : r.run path s with
  | error e s' =>
    rw [Request.image?_of_error h]
    rcases of_error hcreate hspare h with hp | ⟨state, s₁, hp, hf'⟩
    · rw [hp] at hf
      exact ⟨f, hf, .refl f⟩
    · rw [hp] at hf
      exact ⟨f, hf'.trans hf, .refl f⟩
  | ok a s' =>
    obtain ⟨state, s₁, s₂, blob, s₃, q', old, image, hp, hr, he, hf₁, -, hread, hlen, hf', -⟩ := of_ok hcreate hspare h
    rw [hp] at hf
    cases hf.symm.trans hf₁
    rw [Request.image?_of_ok h ((bind_of_ok hp).trans ((bind_of_ok hr).trans (bind_of_ok he))) hread]
    exact ⟨_, hf', overlaid_overwrite hlen⟩

/-- The first moment is when the preparation is over. -/
theorem moments_eq_cons (r : Request) (path : Path) (s : Session) :
    ∃ rest, r.moments path s = endOf (prepare r.tools r.profile path r.capacity s) :: rest := by
  unfold Request.moments
  split
  · next h => exact ⟨[], by rw [h]; rfl⟩
  · next h =>
    rw [h]
    split
    · exact ⟨_, rfl⟩
    · split
      · exact ⟨_, rfl⟩
      · exact ⟨_, rfl⟩

/-- Where no file is there when the preparation is over, the assembly is over too. -/
theorem run_of_no_file (hcreate : r.tools.create = Container.create)
    (hf : (endOf (prepare r.tools r.profile path r.capacity s)).machine.file? path = none) :
    endOf (r.run path s) = endOf (prepare r.tools r.profile path r.capacity s) ∧ r.image? path s = none ∧
      r.moments path s = [endOf (prepare r.tools r.profile path r.capacity s)] := by
  cases hp : prepare r.tools r.profile path r.capacity s with
  | error e s₁ =>
    have hrun : r.run path s = .error e s₁ := assemble_of_build_error (bind_of_error hp)
    exact ⟨by rw [hrun]; rfl, Request.image?_of_error hrun, by rw [Request.moments, hp]; rfl⟩
  | ok state s₁ =>
    obtain ⟨q, f, hf₁⟩ := file?_of_prepare hcreate hp
    rw [hp, endOf_ok, hf₁] at hf
    cases hf

/-- A file that is there only when the preparation is over holds nothing but zeros. -/
theorem zeros_of_prepare (hcreate : r.tools.create = Container.create) (hn : s.machine.file? path = none)
    (hf : (endOf (prepare r.tools r.profile path r.capacity s)).machine.file? path = some (q, f)) : ∀ b ∈ f.content.toList, b = 0 := by
  cases hp : prepare r.tools r.profile path r.capacity s with
  | error e s₁ =>
    rw [hp, endOf_error] at hf
    rcases (prepare_error hcreate hp).2 with ⟨-, ha⟩ | ⟨-, -, ⟨ht, hcwd⟩ | ⟨-, q', hf₁⟩⟩
    · rw [file?_of_alike ha, hn] at hf
      cases hf
    · have hsame : s₁.machine.file? path = s.machine.file? path := by
        rw [Machine.file?, ht, hcwd]
        rfl
      rw [hsame, hn] at hf
      cases hf
    · cases hf₁.symm.trans hf
      nofun
  | ok state s₁ =>
    rw [hp, endOf_ok] at hf
    rcases prepare_ok hcreate hp with ⟨q', f', hs, -⟩ | ⟨-, -, -, ⟨q', hf₁⟩, -⟩
    · rw [hn] at hs
      cases hs
    · cases hf₁.symm.trans hf
      intro b hb
      rw [Container.new, Content.toList_zeros] at hb
      exact List.eq_of_mem_replicate hb

end OneAssembly

/-! ## What stays -/

/-- From one session to a later one: a file at the path is still there, where it was and as long as it was, and no creation has been asked
for. -/
def Keeps (path : Path) (s s' : Session) : Prop :=
  ∀ q f, s.machine.file? path = some (q, f) → ∃ g calls, s'.machine.file? path = some (q, g) ∧
    g.content.length = f.content.length ∧ s'.calls = s.calls ++ calls ∧ ∀ p n, .create p n ∉ calls

section Staying

variable {path : Path} {s s' s'' : Session} {r : Request}

theorem Keeps.trans (h : Keeps path s s') (h' : Keeps path s' s'') : Keeps path s s'' := by
  intro q f hf
  obtain ⟨g, calls, hg, hl, hc, hn⟩ := h q f hf
  obtain ⟨g', calls', hg', hl', hc', hn'⟩ := h' q g hg
  refine ⟨g', calls ++ calls', hg', hl'.trans hl, by rw [hc', hc, List.append_assoc], fun p n hm => ?_⟩
  rcases List.mem_append.1 hm with hm | hm
  · exact hn p n hm
  · exact hn' p n hm

instance : Trans (Keeps path) (Keeps path) (Keeps path) :=
  ⟨Keeps.trans⟩

/-- A call that leaves the file alone and is not for a creation keeps it. -/
theorem keeps_of_call {c : ToolCall} (hf : s'.machine.file? path = s.machine.file? path) (hc : s'.calls = s.calls ++ [c])
    (hn : ∀ p n, c ≠ .create p n) : Keeps path s s' := by
  intro q f h
  refine ⟨f, [c], hf.trans h, rfl, hc, fun p n hm => ?_⟩
  exact hn p n (List.mem_singleton.1 hm).symm

/-- Preparing a container keeps the one that is there. -/
theorem keeps_prepare (hcreate : r.tools.create = Container.create) (path : Path) (s : Session) :
    Keeps path s (endOf (prepare r.tools r.profile path r.capacity s)) := by
  intro q f hf
  obtain ⟨s₁, hp, hf₁, hc⟩ := prepare_of_file hcreate hf r.profile r.capacity
  rw [hp]
  exact ⟨f, [], hf₁, rfl, by rw [endOf_ok, hc, List.append_nil], nofun⟩

/-- Writing a boot image keeps the container. -/
theorem keeps_write (path : Path) (state : Container.State) (blob : Path) (s : Session) : Keeps path s (endOf (write path state blob s)) := by
  intro q f hf
  rcases write_cases hf state blob with ⟨-, e, hw⟩ | ⟨image, s', -, hlen, hw, hc, hf'⟩
  · rw [hw]
    exact ⟨f, [], hf, rfl, (List.append_nil _).symm, nofun⟩
  · rw [hw]
    exact ⟨_, [], hf', (overlaid_overwrite hlen).1, by rw [endOf_ok, hc, List.append_nil], nofun⟩

/-- Each part of an assembly keeps the container. -/
theorem isChain_moments (hg : r.Gentle path s) : (s :: r.moments path s).IsChain (Keeps path) := by
  obtain ⟨hcreate, hspare⟩ := hg
  have hprep := keeps_prepare hcreate path s
  unfold Request.moments
  cases hp : prepare r.tools r.profile path r.capacity s with
  | error e s₁ =>
    rw [hp] at hprep
    exact List.isChain_pair.2 hprep
  | ok state s₁ =>
    obtain ⟨hrf, hrc⟩ := after_refresh hspare hp
    have hkr := keeps_of_call hrf hrc nofun
    rw [hp] at hprep
    dsimp only
    cases hr : refresh r.tools s₁ with
    | error e s₂ =>
      rw [hr] at hkr
      exact List.isChain_cons_cons.2 ⟨hprep, List.isChain_pair.2 hkr⟩
    | ok v s₂ =>
      obtain ⟨hef, hec⟩ := after_embed hspare hp hr
      rw [hr, endOf_ok] at hkr hrf hrc
      have hec' : (endOf (embed r.tools r.profile s₂)).calls = s₂.calls ++ [.embed r.profile] := by
        rw [hec, hrc, List.append_assoc, List.singleton_append]
      have hke := keeps_of_call (hef.trans hrf.symm) hec' nofun
      dsimp only
      cases he : embed r.tools r.profile s₂ with
      | error e s₃ =>
        rw [he] at hke
        exact List.isChain_cons_cons.2 ⟨hprep, List.isChain_cons_cons.2 ⟨hkr, List.isChain_pair.2 hke⟩⟩
      | ok blob s₃ =>
        have hrun : r.run path s = write path state blob s₃ :=
          assemble_of_build_ok ((bind_of_ok hp).trans ((bind_of_ok hr).trans (bind_of_ok he)))
        have hkw := keeps_write path state blob s₃
        rw [he] at hke
        rw [hrun]
        exact List.isChain_cons_cons.2
          ⟨hprep, List.isChain_cons_cons.2 ⟨hkr, List.isChain_cons_cons.2 ⟨hke, List.isChain_pair.2 hkw⟩⟩⟩

/-- The last moment of an assembly is its end. -/
theorem getLast?_moments (r : Request) (path : Path) (s : Session) : (r.moments path s).getLast? = some (endOf (r.run path s)) := by
  have hb := built r.tools r.profile path r.capacity s
  generalize hbuild : build r.tools r.profile path r.capacity s = b at hb
  cases hb with
  | unprepared e s₁ hp =>
    rw [Request.run, assemble_of_build_error hbuild]
    simp only [Request.moments, hp, List.getLast?_singleton, endOf_error]
  | unrefreshed state s₁ e s₂ hp hr =>
    rw [Request.run, assemble_of_build_error hbuild]
    simp only [Request.moments, hp, hr]
    rfl
  | unbuilt state s₁ s₂ e s₃ hp hr he =>
    rw [Request.run, assemble_of_build_error hbuild]
    simp only [Request.moments, hp, hr, he]
    rfl
  | built state s₁ s₂ blob s₃ hp hr he =>
    simp only [Request.moments, hp, hr, he]
    rfl

end Staying

/-! ## Any number of assemblies -/

section History

variable {path : Path} {s : Session} {rs : List Request} {q : Place} {f : File}

/-- From each moment to the next the container is kept, over all assemblies. -/
theorem isChain_sessions (hu : Undisturbed path rs s) : (s :: sessions path rs s).IsChain (Keeps path) := by
  induction rs generalizing s with
  | nil => exact List.isChain_singleton s
  | cons r rs ih =>
    obtain ⟨hg, hu⟩ := hu
    have hrest := ih hu
    rw [sessions, ← List.cons_append]
    refine (isChain_moments hg).append hrest.tail fun x hx y hy => ?_
    -- the last moment of the first assembly is the session that the others start from
    have hlast : (s :: r.moments path s).getLast? = some (endOf (r.run path s)) := by
      rw [List.getLast?_cons, getLast?_moments]
      rfl
    rw [hlast, Option.mem_some_iff] at hx
    subst hx
    exact hrest.rel_head? hy

/-- A file that is there at the start is there in the end, with the images over it. -/
theorem after_overlaid (hu : Undisturbed path rs s) (hf : s.machine.file? path = some (q, f)) :
    ∃ g, (after path rs s).machine.file? path = some (q, g) ∧ Overlaid (images path rs s) f g := by
  induction rs generalizing s f with
  | nil => exact ⟨f, hf, .refl f⟩
  | cons r rs ih =>
    obtain ⟨hg, hu⟩ := hu
    obtain ⟨s₁, hp, hf₁, -⟩ := prepare_of_file hg.1 hf r.profile r.capacity
    obtain ⟨g, hg', ho⟩ := run_overlaid hg (by rw [hp]; exact hf₁)
    obtain ⟨g', hg'', ho'⟩ := ih hu hg'
    exact ⟨g', hg'', ho.trans ho'⟩

/-- Whether a file is at the path. -/
def present (path : Path) (s : Session) : Bool :=
  (s.machine.file? path).isSome

theorem find?_present_of_none (h : s.machine.file? path = none) (l : List Session) :
    (s :: l).find? (present path) = l.find? (present path) :=
  List.find?_cons_of_neg (by rw [present, h]; nofun)

theorem find?_present_of_some (h : s.machine.file? path = some (q, f)) (l : List Session) :
    (s :: l).find? (present path) = some s :=
  List.find?_cons_of_pos (by rw [present, h]; rfl)

/-- Where no file is at the start, the first one that is there holds nothing but zeros, and it is there in the end with the images over
it. The assemblies before it write nothing. -/
theorem after_of_absent (hu : Undisturbed path rs s) (hn : s.machine.file? path = none) :
    (∀ first, (sessions path rs s).find? (present path) = some first →
      ∃ q f g, first.machine.file? path = some (q, f) ∧ (∀ b ∈ f.content.toList, b = 0) ∧
        (after path rs s).machine.file? path = some (q, g) ∧ Overlaid (images path rs s) f g) ∧
      ((sessions path rs s).find? (present path) = none → images path rs s = []) := by
  induction rs generalizing s with
  | nil => exact ⟨nofun, fun _ => rfl⟩
  | cons r rs ih =>
    obtain ⟨hg, hu⟩ := hu
    cases hf : (endOf (prepare r.tools r.profile path r.capacity s)).machine.file? path with
    | some e =>
      -- the first assembly makes the container
      obtain ⟨q, f⟩ := e
      obtain ⟨rest, hrest⟩ := moments_eq_cons r path s
      obtain ⟨g, hg', ho⟩ := run_overlaid hg hf
      obtain ⟨g', hg'', ho'⟩ := after_overlaid hu hg'
      rw [sessions, hrest, List.cons_append, find?_present_of_some hf]
      refine ⟨?_, nofun⟩
      rintro first h
      cases h
      exact ⟨q, f, g', hf, zeros_of_prepare hg.1 hn hf, hg'', ho.trans ho'⟩
    | none =>
      -- the first assembly ends without a container
      obtain ⟨hend, himage, hmoments⟩ := run_of_no_file hg.1 hf
      rw [hend] at hu
      have hrest := ih hu hf
      rw [sessions, images, after, List.foldl_cons, hend, himage, hmoments, List.singleton_append, find?_present_of_none hf]
      exact hrest

/-- A container over any number of assemblies. From each session to every later one, a file that is at the path stays there as long as it
is, and no creation is asked for. The bytes of the first file that is there are zeros unless it was there at the start, and in the end
each of them is that of the last written image that reaches it, if one does. Where no file is ever there, no image is written. -/
theorem container_history (path : Path) (rs : List Request) (s : Session) (hu : Undisturbed path rs s) :
    (s :: sessions path rs s).Pairwise (Keeps path) ∧
      (∀ first, (s :: sessions path rs s).find? (present path) = some first →
        ∃ q f g, first.machine.file? path = some (q, f) ∧ (s.machine.file? path = none → ∀ b ∈ f.content.toList, b = 0) ∧
          (after path rs s).machine.file? path = some (q, g) ∧ g.content.length = f.content.length ∧
          ∀ i, i < f.content.length → g.content.toList[i]? = (lastWritten (images path rs s) i).or f.content.toList[i]?) ∧
      ((s :: sessions path rs s).find? (present path) = none → images path rs s = []) := by
  refine ⟨List.isChain_iff_pairwise.1 (isChain_sessions hu), ?_⟩
  cases hf : s.machine.file? path with
  | some e =>
    obtain ⟨q, f⟩ := e
    obtain ⟨g, hg, ho⟩ := after_overlaid hu hf
    rw [find?_present_of_some hf]
    refine ⟨?_, nofun⟩
    rintro first h
    cases h
    exact ⟨q, f, g, hf, nofun, hg, ho.1, ho.2⟩
  | none =>
    obtain ⟨hfirst, hnever⟩ := after_of_absent hu hf
    rw [find?_present_of_none hf]
    refine ⟨?_, hnever⟩
    intro first h
    obtain ⟨q, f, g, hf', hz, hg, ho⟩ := hfirst first h
    exact ⟨q, f, g, hf', fun _ => hz, hg, ho.1, ho.2⟩

end History

/-- Two assemblies of the sample, with containers of different lengths asked for. -/
def requests : List Request :=
  [⟨.idle ⟨"boot"⟩, .release, 4⟩, ⟨.idle ⟨"boot"⟩, .debug, 9⟩]

theorem present_requests : ((sample :: sessions ⟨"disk"⟩ requests sample).find? (present ⟨"disk"⟩)).isSome = true := by
  decide +kernel

/-- The two assemblies leave a container. -/
theorem container_history_requests :
    Undisturbed ⟨"disk"⟩ requests sample ∧
      ∃ first q g, (sample :: sessions ⟨"disk"⟩ requests sample).find? (present ⟨"disk"⟩) = some first ∧
        (after ⟨"disk"⟩ requests sample).machine.file? ⟨"disk"⟩ = some (q, g) := by
  have hu : Undisturbed ⟨"disk"⟩ requests sample := ⟨⟨rfl, spares_idle _ _ _ _ _⟩, ⟨rfl, spares_idle _ _ _ _ _⟩, trivial⟩
  obtain ⟨-, hfirst, -⟩ := container_history ⟨"disk"⟩ requests sample hu
  obtain ⟨first, h⟩ := Option.isSome_iff_exists.1 present_requests
  obtain ⟨q, f, g, -, -, hg, -⟩ := hfirst first h
  exact ⟨hu, first, q, g, h, hg⟩

end Assembly

end BootDisk
