import BootDisk.Machine.Basic

/-!
# The disk container

A container is a file of a fixed length that a boot image is written into at offset zero. It is created once, all zeros, and from then
on only ever written in place: whatever else is kept behind the boot image stays as it is, and so does the length.
-/

namespace BootDisk.Container

/-- Creates a container of `size` zeros where nothing stands. A size that no file can have leaves an empty file behind. -/
def create (path : Path) (size : Nat) : Act Unit := do
  let (place, node) ← during (.creatingContainer path) (Act.files fun cwd => FileCall.openNew cwd path)
  during (.sizingContainer path size) (Act.files fun _ =>
    if maxFileLength < size then throw .lengthTooLarge else FileCall.store place node (.zeros size))

/-- How the container of a run came to be there. -/
inductive State where
  | created (length : Nat)
  | reused (length : Nat)
  deriving DecidableEq, Repr, Inhabited

namespace State

/-- The length of the container. -/
def length : State → Nat
  | created n => n
  | reused n => n

/-- What was done to have it. -/
def verb : State → String
  | created _ => "created"
  | reused _ => "reusing"

end State

/-- The length that a file has for whoever asks about it; only a regular file has any. -/
def lengthOf : Node → Nat
  | .file f => f.content.length
  | _ => 0

/-- What came of writing a boot image. -/
structure Written where
  blobLength : Nat
  containerLength : Nat
  deriving DecidableEq, Repr, Inhabited

/-- Writes a boot image over the start of a container. The image is read first, and one that is longer than the container is refused
before anything is written. What is no regular file can be opened, but not be flushed. -/
def writeBlob (container blob : Path) : Act Written := do
  let image ← during (.readingBlob blob) (Act.look fun t cwd => t.readAll cwd blob)
  let (place, node) ← during (.openingContainer container) (Act.look fun t cwd => t.openWrite cwd container)
  let room := lengthOf node
  if room < image.length then fail (.blobTooLong blob image.length container room)
  match node with
  | .file f => Act.files fun _ => FileCall.store place node (image.overwrite f.content)
  | _ => during (.flushingContainer container) (fail (.io (.os .invalidArgument)))
  return ⟨image.length, room⟩

end BootDisk.Container
