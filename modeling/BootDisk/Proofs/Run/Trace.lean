import BootDisk.Proofs.Run.Children
import BootDisk.Proofs.Run.Loading
import BootDisk.Proofs.ToolCheck

/-!
# The programs that a run starts

From the arguments on: a run whose arguments, configuration or tools are at fault starts nothing; any other starts what its task does
(`RunChildren`). All of this is told of any programs at all, whatever they do and however they end.
-/

namespace BootDisk

/-- The programs that a run with these arguments starts, in order. -/
inductive RunChildren (programs : Programs) (args : List String) (s : Session) : List Command → Prop where
  | faultyArguments (e : OptionError) : Options.parse args = .error e → RunChildren programs args s []
  | faultyConfig (o : Options) (e : Failure) (m : Machine) : Options.parse args = .ok o → o.settings.project s.machine = .error e m →
      RunChildren programs args s []
  | toolsMissing (o : Options) (p : Project) (e : Failure) (m : Machine) : Options.parse args = .ok o →
      o.settings.project s.machine = .ok p s.machine → checkTools (o.task.tools p.config) s.machine = .error e m →
      RunChildren programs args s []
  | begun {new : List Command} (o : Options) (p : Project) (capacity : Nat) : Options.parse args = .ok o →
      o.settings.project s.machine = .ok p s.machine → checkTools (o.task.tools p.config) s.machine = .ok () s.machine →
      p.config.image.capacityBytes = .ok capacity → TaskChildren programs p o.settings capacity s o.task new →
      RunChildren programs args s new

namespace Options

variable {o : Options} {p : Project} {s : Session}

/-- A run whose project cannot be loaded ends there. -/
theorem run_of_project_error (programs : Programs) {e : Failure} {m : Machine} (h : o.settings.project s.machine = .error e m) :
    o.run programs s = .error e { s with machine := m } :=
  bind_of_error (Act.toRun_of_error h)

/-- A run whose tools are not there ends there. -/
theorem run_of_checkTools_error (programs : Programs) {e : Failure} {m : Machine}
    (hproject : o.settings.project s.machine = .ok p s.machine) (h : checkTools (o.task.tools p.config) s.machine = .error e m) :
    o.run programs s = .error e s := by
  have hm := endOf_checkTools (o.task.tools p.config) s.machine
  rw [h, endOf_error] at hm
  subst hm
  exact (bind_of_ok (Act.toRun_of_ok hproject)).trans (bind_of_error (Act.toRun_of_error h))

/-- Any other run does its task. -/
theorem run_of_checkTools_ok (programs : Programs) (hproject : o.settings.project s.machine = .ok p s.machine)
    (h : checkTools (o.task.tools p.config) s.machine = .ok () s.machine) :
    o.run programs s = o.task.perform programs p o.settings s :=
  (bind_of_ok (Act.toRun_of_ok hproject)).trans (bind_of_ok (Act.toRun_of_ok h))

end Options

section Arguments

variable {args : List String} {o : Options} {p : Project} {s : Session}

/-- A run whose tools are not all there says so, and has done nothing. -/
theorem runArguments_of_missing (programs : Programs) (hparse : Options.parse args = .ok o)
    (hproject : o.settings.project s.machine = .ok p s.machine) (h : ∃ t ∈ o.task.tools p.config, s.machine.hasTool t.1 = false) :
    runArguments programs args s = .error { cause := .toolsMissing (s.machine.missing (o.task.tools p.config)) } s := by
  unfold runArguments
  rw [hparse]
  exact Options.run_of_checkTools_error programs hproject (checkTools_of_missing h)

/-- A run whose tools are all there does its task. -/
theorem runArguments_of_found (programs : Programs) (hparse : Options.parse args = .ok o)
    (hproject : o.settings.project s.machine = .ok p s.machine) (h : ∀ t ∈ o.task.tools p.config, s.machine.hasTool t.1 = true) :
    runArguments programs args s = o.task.perform programs p o.settings s := by
  unfold runArguments
  rw [hparse]
  exact Options.run_of_checkTools_ok programs hproject (checkTools_of_found h)

end Arguments

/-- What a run with these options starts. -/
theorem Options.run_children (programs : Programs) {o : Options} {args : List String} (hparse : Options.parse args = .ok o) (s : Session) :
    ∃ new, (endOf (o.run programs s)).machine.children = s.machine.children ++ new ∧ RunChildren programs args s new := by
  have hendOf := o.settings.endOf_project s.machine
  cases hproject : o.settings.project s.machine with
  | error e m =>
    rw [hproject, endOf_error] at hendOf
    rw [Options.run_of_project_error programs hproject, endOf_error, hendOf]
    exact ⟨[], (List.append_nil _).symm, .faultyConfig o e m hparse hproject⟩
  | ok p m =>
    rw [hproject, endOf_ok] at hendOf
    subst hendOf
    have hchecked := endOf_checkTools (o.task.tools p.config) s.machine
    cases hcheck : checkTools (o.task.tools p.config) s.machine with
    | error e m =>
      rw [Options.run_of_checkTools_error programs hproject hcheck, endOf_error]
      exact ⟨[], (List.append_nil _).symm, .toolsMissing o p e m hparse hproject hcheck⟩
    | ok _ m =>
      rw [hcheck, endOf_ok] at hchecked
      subst hchecked
      obtain ⟨capacity, hcap⟩ := Settings.capacity_of_project hproject
      obtain ⟨new, hchildren, hnew⟩ := Project.children_of_perform programs hcap o.task o.settings s
      rw [Options.run_of_checkTools_ok programs hproject hcheck]
      exact ⟨new, hchildren, .begun o p capacity hparse hproject hcheck hcap hnew⟩

/-- What a run with these arguments starts. -/
theorem children_of_runArguments (programs : Programs) (args : List String) (s : Session) :
    ∃ new, (endOf (runArguments programs args s)).machine.children = s.machine.children ++ new ∧ RunChildren programs args s new := by
  unfold runArguments
  cases hparse : Options.parse args with
  | error e => exact ⟨[], (List.append_nil _).symm, .faultyArguments e hparse⟩
  | ok o => exact Options.run_children programs hparse s

/-- To report a failure changes nothing but what is written. -/
theorem endOf_exitCode (programs : Programs) (args : List String) (s : Session) :
    ∃ err, (exitCode programs args s).2 = { endOf (runArguments programs args s) with
      machine := { (endOf (runArguments programs args s)).machine with err := err } } := by
  unfold exitCode
  split
  · next s' h => exact ⟨s'.machine.err, by rw [h]; rfl⟩
  · next f s' h => exact ⟨_, by rw [h]; rfl⟩

/-- The exit code tells whether the run ended well. -/
theorem exitCode_eq_zero_iff (programs : Programs) (args : List String) (s : Session) :
    (exitCode programs args s).1 = 0 ↔ endedWell (runArguments programs args s) = true := by
  unfold exitCode
  cases runArguments programs args s with
  | ok _ s' => exact iff_of_true rfl rfl
  | error f s' => exact iff_of_false nofun nofun

/-- The program starts exactly the programs that `RunChildren` tells, and those that it compiles are in the order of their names. -/
theorem exitCode_children (programs : Programs) (args : List String) (s : Session) :
    (∃ new, (exitCode programs args s).2.machine.children = s.machine.children ++ new ∧ RunChildren programs args s new) ∧
      ∀ dir row m, Program.discover dir s.machine = .ok row m → row.Pairwise fun a b => a.name < b.name := by
  refine ⟨?_, fun dir row m h => Program.sorted_of_discover h⟩
  obtain ⟨err, hend⟩ := endOf_exitCode programs args s
  rw [hend]
  exact children_of_runArguments programs args s

/-- A session on a machine with the tools of a staging and one program to stage, at whose install path a directory stands. -/
def sampleBlocked : Session where
  machine :=
    { tree := ⟨[(["bin"], .directory), (["cargo", "bin"], .file ⟨.empty, 0o755, 0⟩), (["strip", "bin"], .file ⟨.empty, 0o755, 0⟩),
        (["src"], .directory), (["bin", "src"], .directory), (["a.rs", "bin", "src"], .file (.new newFileMode)), (["dsk"], .directory),
        (["bin", "dsk"], .directory), (["a", "bin", "dsk"], .directory)]⟩,
      cwd := [], searchPath := "/bin", home := ⟨""⟩, clock := 0 }

/-- Programs that do nothing, and end well. -/
def Programs.idle : Programs := fun _ _ t => (.ended (.exited 0) [] [], t)

/-- The first program whose staging fails need not have been compiled: where its install path cannot be taken hold of, it is not. -/
theorem exitCode_blocked :
    valueOf (Program.discover ⟨"/src/bin"⟩ sampleBlocked.machine) = some [⟨"a", ⟨"/src/bin/a.rs"⟩⟩] ∧
      endedWell (Staging.ready ⟨"/dsk/bin"⟩ sampleBlocked) = true ∧
      endedWell (Install.placeholder ⟨"/dsk/bin/a"⟩ sampleBlocked.machine) = false ∧
      (exitCode .idle ["stage"] sampleBlocked).1 = 1 ∧ (exitCode .idle ["stage"] sampleBlocked).2.machine.children = [] := by
  decide +kernel

end BootDisk
