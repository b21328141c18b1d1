import BootDisk.Proofs.Run.Children
import BootDisk.Proofs.Staging.Confined

/-!
# A staging that fails

A staging that fails has put nothing on record: to the steps by which programs are installed it adds at most directories on the way to that of
the record. So whatever else is in the tree, an image and the kernel's sources among it, stays as it is unless a tool changes it or it
stands at an install path.
-/

namespace BootDisk

/-- A report that is not put on record leaves at most directories, on the way to where it would have been. -/
theorem Manifest.growsAlong_of_write_error {stateDir : Path} {r : StageReport} {m m' : Machine} {e : Failure}
    (h : write stateDir r m = .error e m') : m.tree.GrowsAlong m'.tree m.cwd stateDir := by
  rw [write] at h
  cases hreport : ofReport r m with
  | error f m₁ =>
    obtain rfl : m₁ = m := (leaves_ofReport r).of_error hreport
    rw [bind_of_error hreport] at h
    cases h
    exact .refl _ _ _
  | ok manifest m₁ =>
    obtain rfl : m₁ = m := (leaves_ofReport r).of_ok hreport
    rw [bind_of_ok hreport] at h
    have hgrown := FileCall.growsAlong_makeDirectories m₁.cwd stateDir m₁.tree
    cases hmake : FileCall.makeDirectories m₁.cwd stateDir m₁.tree with
    | error io t =>
      rw [hmake, endOf_error] at hgrown
      rw [bind_of_error (during_of_error (Act.files_of_error (FileCall.makeDirectories · stateDir) hmake))] at h
      cases h
      exact hgrown
    | ok _ t =>
      rw [hmake, endOf_ok] at hgrown
      rw [bind_of_ok (during_eq_ok.2 (Act.files_of_ok (FileCall.makeDirectories · stateDir) hmake))] at h
      cases hwrite : FileCall.writeAll m₁.cwd (pathIn stateDir) (.ofList (Text.encode manifest.text)) t with
      | error io t' =>
        have hfiles := Act.files_of_error (m := { m₁ with tree := t })
          (FileCall.writeAll · (pathIn stateDir) (.ofList (Text.encode manifest.text))) hwrite
        rw [bind_of_error (during_of_error hfiles)] at h
        cases h
        obtain rfl := FileCall.writeAll_error hwrite
        exact hgrown
      | ok _ t' =>
        have hfiles := Act.files_of_ok (m := { m₁ with tree := t })
          (FileCall.writeAll · (pathIn stateDir) (.ofList (Text.encode manifest.text))) hwrite
        rw [bind_of_ok (during_eq_ok.2 hfiles)] at h
        cases h

namespace Project

variable {programs : Programs} {p : Project} {s s' : Session}

/-- What can become of the tree from one moment to the next of a staging that is not put on record: a step of installing the programs that are
found, or directories on the way to that of the record. -/
def StageStep (programs : Programs) (p : Project) (names : List String) (s s' : Session) : Prop :=
  Staging.Step (p.toolchain programs) p.profile p.config.userspace.installDir names s s' ∨
    s.machine.tree.GrowsAlong s'.machine.tree s.machine.cwd p.stateDir

/-- A staging that fails goes through such moments only. -/
theorem course_of_stage_error (hw : s.machine.tree.WellNamed) {e : Failure} (h : p.stage (p.toolchain programs) s = .error e s') :
    ∃ moments, Course (p.StageStep programs (Staging.foundNames p.config.userspace.sourceDir s.machine)) s moments s' := by
  have hcourse := (Staging.course_rebuild (p.toolchain programs) p.profile p.config.userspace.sourceDir p.config.userspace.installDir
    hw).mono fun _ _ => (Or.inl : _ → p.StageStep programs _ _ _)
  have houtcome := p.stage_outcome (p.toolchain programs) s
  rw [h] at houtcome
  cases houtcome with
  | failed hrebuild =>
    rw [hrebuild, endOf_error] at hcourse
    exact ⟨_, hcourse⟩
  | unrecorded hrebuild _ hwrite =>
    rw [hrebuild, endOf_ok] at hcourse
    exact ⟨_, hcourse.append (.single (Or.inr (Manifest.growsAlong_of_write_error hwrite)))⟩

end Project

end BootDisk
