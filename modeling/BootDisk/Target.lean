import BootDisk.Path

/-!
# Targets

What a target triple says. A target may also be given as the path of a target file, whose stem is then its name. The architecture is
the part of the name before the first dash, and several spellings stand for one architecture.
-/

namespace BootDisk.Target

/-- The ending of a target file. -/
def fileEnding : List Char := ['.', 'j', 's', 'o', 'n']

/-- Whether a target is given as a target file. -/
def isFile (triple : String) : Bool :=
  fileEnding.isSuffixOf triple.toList

/-- The name of a target, by which its builds are kept apart. -/
def name (triple : String) : String :=
  if isFile triple then (Path.mk triple).fileStem?.getD triple else triple

/-- The architecture of a target: its name up to the first dash. -/
def arch (triple : String) : String :=
  String.ofList ((name triple).toList.takeWhile (· ≠ '-'))

/-- Whether a text starts with a given one. -/
def startsWith (start : String) (s : String) : Bool :=
  start.toList.isPrefixOf s.toList

/-- The one spelling that stands for all spellings of an architecture. -/
def canonical (arch : String) : String :=
  if arch = "i386" ∨ arch = "i486" ∨ arch = "i586" ∨ arch = "i686" then "x86"
  else if arch = "amd64" then "x86_64"
  else if arch = "arm64" then "aarch64"
  else if startsWith "armv" arch ∨ startsWith "thumbv" arch then "arm"
  else if startsWith "riscv64" arch then "riscv64"
  else if startsWith "riscv32" arch then "riscv32"
  else arch

/-- Whether two spellings stand for one architecture. -/
def sameArch (a b : String) : Bool :=
  canonical a == canonical b

/-- The architecture of the host. -/
def hostArch : String := "x86_64"

/-- Whether the host's own tools can work on what is built for a target. -/
def matchesHost (triple : String) : Bool :=
  sameArch hostArch (arch triple)

end BootDisk.Target
