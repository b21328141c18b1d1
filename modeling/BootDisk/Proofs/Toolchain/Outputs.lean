import BootDisk.Proofs.Config.Anchored
import BootDisk.Proofs.Toolchain.Target

/-!
# Where builds are left and looked for

How a build command is read by the tool that is called: its options from left to right (`Choice.ofArgs`), and from them, the directory it works
in and its variables, where it leaves what it builds (`Command.outputs`). A project looks for its programs and its boot image exactly where
its own commands say that they are left, whatever texts are in its configuration (`Project.outputs_expected`).
-/

namespace BootDisk

/-! ## Reading a build command -/

/-- What the options of a build command choose: the programs, the targets, and whether the build is a release. -/
structure Choice where
  bins : List String := []
  targets : List String := []
  release : Bool := false
  deriving DecidableEq, Repr

namespace Choice

/-- Options are read from left to right, up to a double dash, and some of them take the next argument as their value, whatever it is. There
is no choice if a value is missing. -/
def ofArgs : List String → Option Choice
  | [] => some {}
  | "--" :: _ => some {}
  | "--bin" :: value :: rest => (ofArgs rest).map fun c => { c with bins := value :: c.bins }
  | "--target" :: value :: rest => (ofArgs rest).map fun c => { c with targets := value :: c.targets }
  | "--features" :: _ :: rest => ofArgs rest
  | ["--bin"] => none
  | ["--target"] => none
  | ["--features"] => none
  | "--release" :: rest => (ofArgs rest).map fun c => { c with release := true }
  | _ :: rest => ofArgs rest

/-- The directory that builds with this choice of profile are left in. -/
def profileFolder (c : Choice) : Path :=
  if c.release then ⟨"release"⟩ else ⟨"debug"⟩

end Choice

/-- The directory that builds for a target are left in: a target file stands for its stem. -/
def targetFolder (target : String) : Path :=
  if ".json".toList <:+ target.toList then ⟨(Path.mk target).fileStem?.getD target⟩ else ⟨target⟩

/-- The file that the build of a program is left in: a boot image has a name made from the program's. -/
def outputName (subcommand bin : String) : Path :=
  if subcommand = "bootimage" then ⟨s!"bootimage-{bin}.bin"⟩ else ⟨bin⟩

/-- Where a build command leaves what it builds: in the target directory that it is given, as seen from the directory it works in, for each
target and each program that it is told of. -/
def Command.outputs (c : Command) : List Path :=
  match c.dir, c.env.lookup "CARGO_TARGET_DIR", c.args with
  | some dir, some targetDir, subcommand :: options =>
    match Choice.ofArgs options with
    | some choice =>
      choice.targets.flatMap fun target => choice.bins.map fun bin =>
        (((dir.join ⟨targetDir⟩).join (targetFolder target)).join choice.profileFolder).join (outputName subcommand bin)
    | none => []
  | _, _, _ => []

/-- A command that is told of one target and one program leaves one output. -/
theorem Command.outputs_of_single {c : Command} {dir : Path} {targetDir subcommand target bin : String} {options : List String}
    {release : Bool} (hdir : c.dir = some dir) (hvariable : c.env.lookup "CARGO_TARGET_DIR" = some targetDir)
    (hargs : c.args = subcommand :: options) (hchoice : Choice.ofArgs options = some ⟨[bin], [target], release⟩) :
    c.outputs =
      [(((dir.join ⟨targetDir⟩).join (targetFolder target)).join (if release then ⟨"release"⟩ else ⟨"debug"⟩)).join
        (outputName subcommand bin)] := by
  rw [outputs, hdir, hvariable, hargs]
  dsimp only
  rw [hchoice]
  rfl

/-! ## The commands of a project -/

namespace Choice

/-- Nothing is chosen behind a double dash. -/
theorem ofArgs_behind (compilerArgs : List String) : ofArgs (if compilerArgs = [] then [] else "--" :: compilerArgs) = some {} := by
  split <;> rfl

/-- Features choose no output, whatever they are called. -/
theorem ofArgs_features (features rest : List String) :
    ofArgs ((if features = [] then [] else ["--features", ",".intercalate features]) ++ rest) = ofArgs rest := by
  split <;> rfl

theorem ofArgs_noDefault (noDefaultFeatures : Bool) (rest : List String) :
    ofArgs ((if noDefaultFeatures then ["--no-default-features"] else []) ++ rest) = ofArgs rest := by
  cases noDefaultFeatures <;> rfl

theorem ofArgs_profile (profile : Profile) {rest : List String} (hrest : ofArgs rest = some {}) :
    ofArgs (profile.flag?.toList ++ rest) = some { release := profile = .release } := by
  cases profile with
  | release =>
    show (ofArgs rest).map _ = _
    rw [hrest]
    rfl
  | debug => exact hrest

/-- A project's commands choose one program, one target and the profile. -/
theorem ofArgs_selection (p : Project) (bin : String) (profile : Profile) (noDefaultFeatures : Bool) (features : List String)
    {rest : List String} (hrest : ofArgs rest = some {}) :
    ofArgs (p.selection bin profile noDefaultFeatures features ++ rest) = some ⟨[bin], [p.targetArgument], profile = .release⟩ := by
  have htail := ofArgs_profile profile
    ((ofArgs_noDefault noDefaultFeatures _).trans ((ofArgs_features features rest).trans hrest))
  unfold Project.selection
  simp only [List.append_assoc, List.cons_append, List.nil_append]
  rw [ofArgs, ofArgs, htail]
  rfl

end Choice

namespace Project

/-- The target that the build is told of stands for the target's name. -/
theorem targetFolder_targetArgument (p : Project) : targetFolder p.targetArgument = ⟨Target.name p.config.target.triple⟩ := by
  have hfolder {s : String} (h : Target.isFile s = true) : targetFolder s = ⟨(Path.mk s).fileStem?.getD s⟩ :=
    if_pos (Target.isFile_iff.1 h)
  have hargument : p.targetArgument = (p.withTriple p.config.target.triple).targetArgument := rfl
  cases hfile : Target.isFile p.config.target.triple with
  | false =>
    rw [hargument, targetArgument_of_not_file hfile, Target.name_of_not_file hfile]
    exact if_neg fun h => Bool.eq_false_iff.1 hfile (Target.isFile_iff.2 h)
  | true =>
    obtain ⟨front, t, htriple, hfront, hslash⟩ := Target.exists_of_isFile hfile
    have hstem := Path.fileStem?_behind hfront (Target.isFileName_file hslash)
    rw [← htriple] at hstem
    rw [hargument, targetArgument_of_file hfile, Target.name, if_pos hfile]
    split
    · exact hfolder hfile
    · next hrelative =>
      -- taken from the root, the file's path has the same stem, which is all that its folder is called by
      obtain ⟨hsame, hjoined⟩ := Target.fileStem?_join hfile (Bool.eq_false_iff.2 hrelative) p.root
      rw [hfolder hjoined, hsame, hstem]
      rfl

/-- What a command of the project leaves is looked for below the directory of the project's builds, if that is absolute. -/
theorem outputs_of_selection {p : Project} (htarget : p.config.target.targetDir.isAbsolute = true) (subcommand bin : String)
    (profile : Profile) (noDefaultFeatures : Bool) (features : List String) {rest : List String} (hrest : Choice.ofArgs rest = some {}) :
    ((p.cargo subcommand).addArgs (p.selection bin profile noDefaultFeatures features ++ rest)).outputs =
      [(p.outputDir profile).join (outputName subcommand bin)] := by
  have houtputs := Command.outputs_of_single (c := (p.cargo subcommand).addArgs (p.selection bin profile noDefaultFeatures features ++ rest))
    rfl rfl rfl (Choice.ofArgs_selection p bin profile noDefaultFeatures features hrest)
  have hdir : p.root.join ⟨p.config.target.targetDir.text⟩ = p.config.target.targetDir := if_pos htarget
  rw [houtputs, hdir, targetFolder_targetArgument, outputDir]
  cases profile <;> rfl

/-- A project that is loaded from an absolute root looks for each of its programs, and for its boot image, exactly where the command that
builds it leaves it. -/
theorem outputs_expected {p : Project} {file : Option Path} {m m' : Machine} (hroot : p.root.isAbsolute = true)
    (hload : Config.load p.root file m = .ok p.config m') (name : String) (profile : Profile) :
    (p.compileCommand name profile).outputs = [p.artifactPath name profile] ∧
      (p.embedCommand profile).outputs = [p.blobPath profile] := by
  obtain ⟨-, c₀, hc, -⟩ := Config.load_eq_ok.1 hload
  have htarget : p.config.target.targetDir.isAbsolute = true := by
    rw [hc]
    exact Path.isAbsolute_anchoredAt hroot _
  constructor
  · have hname : outputName (if p.config.userspace.rustcArgs = [] then "build" else "rustc") name = ⟨name⟩ := by split <;> rfl
    rw [artifactPath, ← hname]
    exact outputs_of_selection htarget _ name profile _ _ (Choice.ofArgs_behind _)
  · have hnothing : Choice.ofArgs [] = some {} := rfl
    have h := outputs_of_selection htarget "bootimage" p.config.kernel.bin profile p.config.kernel.noDefaultFeatures
      p.config.kernel.features hnothing
    rwa [List.append_nil] at h

/-- A configuration for a target file, whose features and compiler arguments look like options of the build. -/
def lookalikeText : String :=
  "[target]\ntriple = \"specs.d/os.v1.json\"\n[userspace]\nfeatures = [\"--\"]\nrustc_args = [\"--release\"]\n"

/-- The project with that configuration. -/
def lookalikes : Project where
  root := ⟨"/proj"⟩
  config :=
    Config.resolve
      { target := { triple := "specs.d/os.v1.json" }, userspace := { features := ["--"], rustcArgs := ["--release"] } } ⟨"/proj"⟩
  profile := .debug

/-- The program that is called by a double dash is looked for where it is left, in the directory of the profile that is asked for. -/
theorem outputs_expected_lookalikes :
    lookalikes.root.isAbsolute = true ∧
      Config.load lookalikes.root none (Config.sampleProject lookalikeText) = .ok lookalikes.config (Config.sampleProject lookalikeText) ∧
      (lookalikes.compileCommand "--" .debug).outputs = [⟨"/proj/target/os.v1/debug/--"⟩] ∧
      (lookalikes.embedCommand .debug).outputs = [⟨"/proj/target/os.v1/debug/bootimage-syskrnl.bin"⟩] := by
  have hroot : lookalikes.root.isAbsolute = true := by decide
  have hload : Config.load ⟨"/proj"⟩ none (Config.sampleProject lookalikeText) =
      .ok lookalikes.config (Config.sampleProject lookalikeText) := Config.load_of_textAt lookalikeText (by decide +kernel)
  obtain ⟨hcompile, hembed⟩ := outputs_expected hroot hload "--" .debug
  exact ⟨hroot, hload, hcompile.trans (by decide +kernel), hembed.trans (by decide +kernel)⟩

end Project

end BootDisk
