import BootDisk.Machine.Basic

/-!
# Loading a configuration

A project's configuration is the file that was named, or the one of the usual name in the project's root if there is one, or else all
defaults. The five paths in it are then taken from the root, unless they stand on their own.
-/

namespace BootDisk

namespace Path

/-- A path as seen from a root: one that is absolute stands on its own. -/
def anchoredAt (p root : Path) : Path :=
  if p.isAbsolute then p else root.join p

end Path

namespace Config

/-- The usual name of a configuration file. -/
def fileName : String := "kernel-image.toml"

/-- The configuration with its paths taken from a root. -/
def resolve (c : Config) (root : Path) : Config :=
  { c with
    target := { c.target with targetDir := c.target.targetDir.anchoredAt root }
    kernel := { c.kernel with entrySource := c.kernel.entrySource.anchoredAt root }
    userspace :=
      { c.userspace with
        sourceDir := c.userspace.sourceDir.anchoredAt root
        installDir := c.userspace.installDir.anchoredAt root }
    image := { c.image with path := c.image.path.anchoredAt root } }

/-- The configuration in a file, as written there. -/
def readFile (path : Path) : Act Config := do
  let text ← during (.readingConfig path) (Act.look fun t cwd => t.readText cwd path)
  during (.parsingConfig path)
    (match parse text with
    | .ok c => pure c
    | .error e => fail (.config e))

/-- Loads the configuration of the project at `root`, from the file at `path` if one is named. -/
def load (root : Path) (path : Option Path) : Act Config := do
  let usual := root.join ⟨fileName⟩
  let c ←
    match path with
    | some p => readFile (root.join p)
    | none => if ← Act.holds fun t cwd => t.isFile cwd usual then readFile usual else pure {}
  return c.resolve root

end Config

end BootDisk
