import BootDisk.Machine.Run
import BootDisk.Toolchain.Basic
import BootDisk.Toolchain.Commands

/-!
# The toolchain of the host

The toolchain that runs the host's programs. A build that ends well still has to have left a file where its output belongs.
-/

namespace BootDisk.Project

/-- Fails with a cause unless a path resolves to a regular file. -/
def expectFile (path : Path) (c : Cause) : Act Unit := do
  if ← Act.holds fun t cwd => t.isFile cwd path then pure () else fail c

/-- Builds a program and tells where it is. -/
def compile (programs : Programs) (p : Project) (name : String) (profile : Profile) : Act Path := do
  ({ p.compileCommand name profile with note := some s!"building '{name}' failed" }).run programs
  let path := p.artifactPath name profile
  expectFile path (.artifactMissing name path)
  return path

/-- Strips binaries, all in one call; for none at all nothing is called. -/
def strip (programs : Programs) (p : Project) (paths : List Path) : Act Unit :=
  if paths = [] then pure ()
  else ({ p.stripCommand paths with note := some "stripping staged binaries failed" }).run programs

/-- Marks the kernel's entry source as changed just now, so that the kernel is built anew. -/
def invalidate (p : Project) : Act Unit := do
  let path := p.config.kernel.entrySource
  let (place, node) ← during (.openingEntrySource path) (Act.look fun t cwd => t.openWrite cwd path)
  match node with
  | .file f => modify fun m => { m with tree := m.tree.put place (.file { f with modified := m.clock }) }
  | _ => pure ()

/-- Builds the boot image and tells where it is. -/
def embed (programs : Programs) (p : Project) (profile : Profile) : Act Path := do
  ({ p.embedCommand profile with note := some "building boot image failed" }).run programs
  let path := p.blobPath profile
  expectFile path (.bootImageMissing path)
  return path

/-- The toolchain of a project on a host. -/
def toolchain (programs : Programs) (p : Project) : Toolchain where
  compile := p.compile programs
  strip := p.strip programs
  invalidate := p.invalidate
  embed := p.embed programs
  matchesHost := Target.matchesHost p.config.target.triple

end BootDisk.Project
