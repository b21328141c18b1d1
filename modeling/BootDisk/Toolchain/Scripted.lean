import BootDisk.FileTree.Lay
import BootDisk.Toolchain.Basic

/-!
# Toolchains that follow a script

A toolchain whose every answer is laid down beforehand: what each compilation and the kernel build make and where, and which calls
fail. It is what staging and assembling are tried out with where no compiler is at hand.
-/

namespace BootDisk

/-- What a build makes. It fails with `error` if there is one. Otherwise `plant` is put in place first, whatever it has to do with the
build; then the product is made at `place`, or at the place usual for it, unless it is to be missing there. -/
structure Product where
  error : Option String := none
  plant : Option (Path × Furnishing) := none
  place : Option Path := none
  missing : Bool := false
  directory : Bool := false
  data : Option Content := none
  mode : Nat := newFileMode
  deriving Repr, Inhabited

/-- What creating a container comes to. -/
inductive CreateScript where
  | asked
  | fails (text : String)
  | ofLength (n : Nat)
  | nothing
  deriving Repr, Inhabited

/-- What a toolchain answers. -/
structure Script where
  outDir : Path
  matchesHost : Bool := true
  compile : List (String × Product) := []
  embed : Product := {}
  stripError : Option String := none
  invalidateError : Option String := none
  create : CreateScript := .asked
  deriving Inhabited

namespace Script

/-- What stands at the start of the debug information of a binary. -/
def debugMark : List UInt8 :=
  0 :: Text.encode ".debug_info"

/-- The bytes before the first debug information. -/
def withoutDebug : List UInt8 → List UInt8
  | [] => []
  | b :: rest => if debugMark.isPrefixOf (b :: rest) then [] else b :: withoutDebug rest

/-- Fails with a text, if there is one. -/
def failWith : Option String → Act Unit
  | some text => fail (.reported text)
  | none => pure ()

/-- Makes a product. -/
def make (p : Product) (usual : Path) (usualData : Content) : Act Path := do
  failWith p.error
  match p.plant with
  | some (path, what) => Act.files fun cwd => FileCall.lay cwd path what
  | none => pure ()
  let path := p.place.getD usual
  if p.missing then pure ()
  else if p.directory then Act.files fun cwd => FileCall.makeDirectories cwd path
  else Act.files fun cwd => FileCall.lay cwd path (.file (p.data.getD usualData) p.mode)
  return path

/-- The directory that builds with a profile go to. -/
def profileDir (s : Script) (profile : Profile) : Path :=
  s.outDir.join ⟨profile.name⟩

/-- What a compilation makes of a program if nothing else is laid down. -/
def usualBinary (name : String) (profile : Profile) : Content :=
  .ofList (Text.encode s!"ELF {name} {profile.name}" ++ debugMark ++ Text.encode "ZZZZ")

/-- Cuts a file before its debug information. -/
def stripFile (path : Path) : Act Unit := do
  let content ← Act.look fun t cwd => t.readAll cwd path
  Act.files fun cwd => FileCall.writeAll cwd path (.ofList (withoutDebug content.toList))

/-- The toolchain that follows a script. -/
def toolchain (s : Script) : Toolchain where
  compile name profile :=
    make ((s.compile.lookup name).getD {}) ((s.profileDir profile).join ⟨name⟩) (usualBinary name profile)
  strip paths := do
    failWith s.stripError
    paths.forM stripFile
  invalidate := failWith s.invalidateError
  embed profile := make s.embed ((s.profileDir profile).join ⟨"bootimage.bin"⟩) (.ofList (Text.encode "BOOTBLOB"))
  create path size :=
    match s.create with
    | .asked => Container.create path size
    | .fails text => fail (.reported text)
    | .ofLength n => Container.create path n
    | .nothing => pure ()
  matchesHost := s.matchesHost

end Script

end BootDisk
