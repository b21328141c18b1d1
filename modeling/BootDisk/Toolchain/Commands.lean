import BootDisk.Command
import BootDisk.Project

/-!
# The commands that build

The command lines by which a project's programs and its boot image are built and its binaries stripped. A target file is named by its
full path, so that it is found from whatever directory the build looks.
-/

namespace BootDisk.Project

/-- The target as the compiler is told. -/
def targetArgument (p : Project) : String :=
  let triple := p.config.target.triple
  if Target.isFile triple ∧ ¬ (Path.mk triple).isAbsolute then (p.root.join ⟨triple⟩).text else triple

/-- A build command, run in the project's root with its target directory. -/
def cargo (p : Project) (subcommand : String) : Command where
  program := p.config.tools.cargo
  args := [subcommand]
  env := [("CARGO_TARGET_DIR", p.config.target.targetDir.text)]
  dir := some p.root
  echo := p.verbose

/-- The options that choose what is built, for which target, and how. -/
def selection (p : Project) (bin : String) (profile : Profile) (noDefaultFeatures : Bool) (features : List String) :
    List String :=
  ["--bin", bin, "--target", p.targetArgument] ++ profile.flag?.toList ++
    (if noDefaultFeatures then ["--no-default-features"] else []) ++
    (if features = [] then [] else ["--features", ",".intercalate features])

/-- The command that builds a program. Compiler arguments go behind a double dash. -/
def compileCommand (p : Project) (name : String) (profile : Profile) : Command :=
  let u := p.config.userspace
  let base := p.cargo (if u.rustcArgs = [] then "build" else "rustc")
  base.addArgs (p.selection name profile u.noDefaultFeatures u.features ++
    (if u.rustcArgs = [] then [] else "--" :: u.rustcArgs))

/-- The command that builds the boot image. -/
def embedCommand (p : Project) (profile : Profile) : Command :=
  let k := p.config.kernel
  (p.cargo "bootimage").addArgs (p.selection k.bin profile k.noDefaultFeatures k.features)

/-- The command that strips binaries, all in one call. -/
def stripCommand (p : Project) (paths : List Path) : Command where
  program := p.config.tools.strip
  args := paths.map Path.text
  echo := p.verbose

end BootDisk.Project
