import BootDisk.FileTree.Calls
import BootDisk.Shell.Octets

/-!
# What can be run

How a file is started as a program, by what its bytes begin with: one of the programs at hand, or a script that names its interpreter.
-/

namespace BootDisk.Shell

/-- How a file is run. -/
inductive Image where
  | native (program : String)
  | interpreted (interpreter : Path) (argument : Option Octets)
  | unknown
  deriving DecidableEq, Repr, Inhabited

namespace Image

/-- What the file of a program at hand begins with. -/
def nativeMark : List UInt8 :=
  [0x7f, 0x45, 0x4c, 0x46, 0x02, 0x01, 0x01, 0x00]

/-- The bytes of the file of a program at hand. -/
def nativeFile (program : String) : List UInt8 :=
  nativeMark ++ Text.encode program

/-- How much of the first line is looked at for an interpreter. -/
def maxInterpreterLine : Nat := 255

/-- Whether an octet is a blank in the line that names an interpreter. -/
def isGap (c : Char) : Bool :=
  c == ' ' || c == '\t'

/-- The interpreter that a first line names, and the one argument that it may have. -/
def ofFirstLine (line : Octets) : Image :=
  let line := ((line.dropWhile isGap).reverse.dropWhile isGap).reverse
  let name := line.takeWhile fun c => !isGap c
  let argument := (line.drop name.length).dropWhile isGap
  if name = [] then .unknown else .interpreted ⟨toText name⟩ (if argument = [] then none else some argument)

/-- How a file with these bytes is run. -/
def ofBytes (bytes : List UInt8) : Image :=
  if nativeMark.isPrefixOf bytes then
    match Text.decode? (bytes.drop nativeMark.length) with
    | some program => if program = "" then .unknown else .native program
    | none => .unknown
  else
    match Shell.ofBytes (bytes.take maxInterpreterLine) with
    | '#' :: '!' :: rest => ofFirstLine (rest.takeWhile (· ≠ '\n'))
    | _ => .unknown

/-- How much of a file without a mark is looked at before it is taken for a script. -/
def maxGlance : Nat := 128

/-- Whether a byte is one that no text holds: a control character, but for those that lay texts out. -/
def isUntextual (b : UInt8) : Bool :=
  b == 127 || (b < 32 && !(9 ≤ b && b ≤ 15) && b != 27)

/-- Whether a file without a mark is no script either: there is something in its first line that no text holds. -/
def isNoText (bytes : List UInt8) : Bool :=
  ((bytes.take maxGlance).takeWhile (· ≠ 10)).any isUntextual

/-- Whether what a path resolves to may be taken for a script. -/
def mayBeScript (t : Tree) (cwd : Place) (p : Path) : Bool :=
  match t.entry cwd p .through with
  | .ok (_, .file f) => !isNoText (f.content.take maxGlance).toList
  | _ => false

/-- How the file that a path resolves to is run. It has to be a regular file that someone may run. -/
def load (t : Tree) (cwd : Place) (p : Path) : Except OsError Image :=
  match t.entry cwd p .through with
  | .error (.os e) => .error e
  | .error _ => .error .noEntry
  | .ok (_, .file f) => if Nat.land f.mode 0o111 = 0 then .error .denied else .ok (ofBytes f.content.toList)
  | .ok _ => .error .denied

end Image

end BootDisk.Shell
