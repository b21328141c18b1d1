import BootDisk.Boot
import BootDisk.Proofs.Discovery.Binaries
import BootDisk.Proofs.Path
import BootDisk.Toolchain.Commands
import BootDisk.Tools

/-!
# Targets given as files

A target file is called by its stem, wherever it is (`Target.name_file`). All but the value of one option is decided by that name, so a
project is built, installed and booted for a target file as it is for the target of the file's name (`Project.target_file_as_stem`).
-/

namespace BootDisk

namespace Target

variable {front t triple : String}

theorem isFile_iff : isFile triple = true ↔ ".json".toList <:+ triple.toList :=
  List.isSuffixOf_iff_suffix

/-- A name with the ending of a target file is one that an entry of a directory can be called by. -/
theorem isFileName_file (hslash : '/' ∉ t.toList) : IsFileName (t ++ ".json") := by
  have hlength : 5 ≤ (t ++ ".json").toList.length := by
    rw [String.toList_append, List.length_append]
    exact Nat.le_add_left ..
  have hshort {cs : List Char} (hcs : cs.length < 5) : (t ++ ".json").toList ≠ cs := fun h => by
    rw [h] at hlength
    omega
  refine ⟨hshort (by decide), ?_, hshort (by decide), hshort (by decide)⟩
  rw [String.toList_append, List.mem_append]
  rintro (h | h)
  · exact hslash h
  · exact absurd h (by decide)

theorem isFile_append (s : String) : isFile (s ++ ".json") = true := by
  rw [isFile_iff, String.toList_append]
  exact List.suffix_append ..

/-- The path of a target file is the front of a path and a name with the ending of a target file. -/
theorem exists_of_isFile (h : isFile triple = true) :
    ∃ front t, triple = front ++ (t ++ ".json") ∧ Path.IsFront front ∧ '/' ∉ t.toList := by
  obtain ⟨cs, hcs⟩ := isFile_iff.1 h
  obtain ⟨front, t, hsplit, hfront, hslash⟩ := Path.exists_front (String.ofList cs)
  refine ⟨front, t, ?_, hfront, hslash⟩
  rw [← String.append_assoc, ← hsplit, ← String.toList_inj, String.toList_append, String.toList_ofList]
  exact hcs.symm

/-- A target file is called by its stem, wherever it is. -/
theorem name_file (hfront : Path.IsFront front) (ht : t ≠ "") (hslash : '/' ∉ t.toList) : name (front ++ (t ++ ".json")) = t := by
  have hcut : Path.cutAtLastDot (t ++ ".json").toList = (t.toList, some "json".toList) := by
    refine Path.cutAtLastDot_eq_some.2 ⟨mt String.toList_eq_nil_iff.1 ht, by decide, ?_⟩
    rw [String.toList_append]
    rfl
  have hfile : isFile (front ++ (t ++ ".json")) = true := by
    rw [← String.append_assoc]
    exact isFile_append _
  rw [name, if_pos hfile, Path.fileStem?_behind hfront (isFileName_file hslash), hcut, Option.getD_some, String.ofList_toList]

/-- Any other target is called by itself. -/
theorem name_of_not_file (h : isFile triple = false) : name triple = triple := by
  rw [name, h, if_neg nofun]

/-- A target file keeps its stem when its path is taken from some directory. -/
theorem fileStem?_join (h : isFile triple = true) (hrelative : (Path.mk triple).isAbsolute = false) (dir : Path) :
    (dir.join ⟨triple⟩).fileStem? = (Path.mk triple).fileStem? ∧ isFile (dir.join ⟨triple⟩).text = true := by
  obtain ⟨front, t, rfl, hfront, hslash⟩ := exists_of_isFile h
  obtain ⟨front', hfront', hjoin⟩ := Path.exists_join_behind hfront hrelative dir
  have hname := isFileName_file hslash
  rw [hjoin, Path.fileStem?_behind hfront' hname, Path.fileStem?_behind hfront hname]
  refine ⟨rfl, ?_⟩
  rw [← String.append_assoc]
  exact isFile_append _

end Target

/-- Two build commands that are the same but for the value of the target option. -/
def Command.SameButTarget (target target' : String) (c c' : Command) : Prop :=
  ∃ subcommand bin after, c.args = subcommand :: "--bin" :: bin :: "--target" :: target :: after ∧
    c' = { c with args := subcommand :: "--bin" :: bin :: "--target" :: target' :: after }

namespace Project

/-- The project for another target. -/
def withTriple (p : Project) (triple : String) : Project :=
  { p with config := { p.config with target := { p.config.target with triple := triple } } }

/-- Two projects are built, installed and booted alike, except that the build is told of two targets. -/
structure BuiltAlike (p p' : Project) (target target' : String) : Prop where
  name : Target.name p.config.target.triple = Target.name p'.config.target.triple
  arch : Target.arch p.config.target.triple = Target.arch p'.config.target.triple
  matchesHost : Target.matchesHost p.config.target.triple = Target.matchesHost p'.config.target.triple
  artifactPath : ∀ program profile, p.artifactPath program profile = p'.artifactPath program profile
  blobPath : ∀ profile, p.blobPath profile = p'.blobPath profile
  stageTools : p.config.stageTools = p'.config.stageTools
  imageTools : p.config.imageTools = p'.config.imageTools
  qemuTools : p.config.qemuTools = p'.config.qemuTools
  bootCommand : ∀ headless serialLog, p.bootCommand headless serialLog = p'.bootCommand headless serialLog
  compileCommand : ∀ program profile,
    Command.SameButTarget target target' (p.compileCommand program profile) (p'.compileCommand program profile)
  embedCommand : ∀ profile, Command.SameButTarget target target' (p.embedCommand profile) (p'.embedCommand profile)

variable {p : Project} {t t' : String}

/-- Two targets of one name are only told apart by what the build is told. -/
theorem builtAlike_of_name (h : Target.name t = Target.name t') :
    (p.withTriple t).BuiltAlike (p.withTriple t') (p.withTriple t).targetArgument (p.withTriple t').targetArgument := by
  have harch : Target.arch t = Target.arch t' := by rw [Target.arch, h, ← Target.arch]
  have hhost : Target.matchesHost t = Target.matchesHost t' := by rw [Target.matchesHost, harch, ← Target.matchesHost]
  have houtput (profile : Profile) : (p.withTriple t).outputDir profile = (p.withTriple t').outputDir profile := by
    simp only [outputDir, withTriple, h]
  exact
    { name := h
      arch := harch
      matchesHost := hhost
      artifactPath := fun program profile => by rw [artifactPath, houtput, ← artifactPath]
      blobPath := fun profile => by
        rw [blobPath, houtput]
        rfl
      stageTools := by
        unfold Config.stageTools withTriple
        dsimp only
        rw [hhost]
      imageTools := rfl
      qemuTools := by simp only [Config.qemuTools, withTriple, harch]
      bootCommand := fun headless serialLog => by simp only [bootCommand, guest, withTriple, harch, hhost]
      compileCommand := fun program profile => ⟨_, _, _, rfl, rfl⟩
      embedCommand := fun profile => ⟨_, _, _, rfl, rfl⟩ }

/-- What the build is told of a target that is no file. -/
theorem targetArgument_of_not_file (h : Target.isFile t = false) : (p.withTriple t).targetArgument = t := by
  unfold targetArgument withTriple
  dsimp only
  rw [h, if_neg fun h => nomatch h.1]

/-- What it is told of a target file: its path, taken from the project's root if it is relative. -/
theorem targetArgument_of_file (h : Target.isFile t = true) :
    (p.withTriple t).targetArgument = if (Path.mk t).isAbsolute then t else (p.root.join ⟨t⟩).text := by
  unfold targetArgument withTriple
  dsimp only
  rw [h]
  cases (Path.mk t).isAbsolute <;> rfl

/-- A project is built for a target file, wherever it is, as it is for the target of the file's name. Only the build is told of the file: of
its path, taken from the project's root if it is relative. -/
theorem target_file_as_stem (p : Project) (front t : String) (ht : t ≠ "") (hslash : '/' ∉ t.toList)
    (hplain : ¬ ".json".toList <:+ t.toList) (hfront : Path.IsFront front) :
    (p.withTriple t).BuiltAlike (p.withTriple (front ++ t ++ ".json")) t
      (if (Path.mk (front ++ t ++ ".json")).isAbsolute then front ++ t ++ ".json" else (p.root.join ⟨front ++ t ++ ".json"⟩).text) := by
  have hnot : Target.isFile t = false := Bool.eq_false_iff.2 (mt Target.isFile_iff.1 hplain)
  have hname : Target.name t = Target.name (front ++ t ++ ".json") := by
    rw [Target.name_of_not_file hnot, String.append_assoc, Target.name_file hfront ht hslash]
  have halike := builtAlike_of_name (p := p) hname
  rwa [targetArgument_of_not_file hnot, targetArgument_of_file (Target.isFile_append _)] at halike

/-- A target file in a directory with dots and dashes in its name, and with more dots in the file's own. -/
theorem target_file_as_stem_sampleDotted :
    "x86_64-os.v1" ≠ "" ∧ '/' ∉ "x86_64-os.v1".toList ∧ ¬ ".json".toList <:+ "x86_64-os.v1".toList ∧
      Path.IsFront "../arm-targets.json//" ∧
      (Project.mk ⟨"/proj"⟩ { target := { triple := "x86_64-os.v1" } } .release false).BuiltAlike
        (Project.mk ⟨"/proj"⟩ { target := { triple := "../arm-targets.json//x86_64-os.v1.json" } } .release false)
        "x86_64-os.v1" "/proj/../arm-targets.json//x86_64-os.v1.json" :=
  ⟨by decide, by decide, by decide, by decide,
    target_file_as_stem ⟨⟨"/proj"⟩, {}, .release, false⟩ "../arm-targets.json//" "x86_64-os.v1" (by decide) (by decide) (by decide)
      (by decide)⟩

end Project

end BootDisk
