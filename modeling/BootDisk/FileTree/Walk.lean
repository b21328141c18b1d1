import BootDisk.FileTree.Basic
import BootDisk.IoError
import BootDisk.Text.Utf8

/-!
# Walking a path

Where a path leads in a tree. The walk takes one step after the other from a starting place, goes through links as it meets them, and
ends at a node or at the one missing name of an existing directory. At most forty links are gone through on one walk.
-/

namespace BootDisk

/-- One step of a walk. A slash at the end of a path asks for a directory. -/
inductive Step where
  | here
  | up
  | name (s : String)
  | slash
  deriving DecidableEq, Repr

/-- The steps of a path, leaving out where it starts. -/
def Path.steps (p : Path) : List Step :=
  let parts := (Text.fields '/' p.text.toList).filter (· ≠ [])
  parts.map (fun cs => if cs = ['.'] then .here else if cs = ['.', '.'] then .up else .name (String.ofList cs)) ++
    if p.text.toList.getLast? = some '/' then [.slash] else []

/-- Where a walk ends: at a node, or in a directory that has nothing under the last name. Both say whether a slash followed. -/
inductive Arrival where
  | found (place : Place) (node : Node) (slash : Bool)
  | vacant (parent : Place) (name : String) (slash : Bool)
  deriving DecidableEq, Repr

/-- What a walk does with a link as its last step: `through` goes through it; `itself` takes the link, unless a slash behind it asks for
a directory; `toCreate` goes through it, unless a slash follows; `never` takes the link in either case. -/
inductive LastLink where
  | through
  | itself
  | toCreate
  | never
  deriving DecidableEq, Repr

/-- Whether the link is gone through, by whether a slash follows it. -/
def LastLink.isFollowed : LastLink → Bool → Bool
  | through, _ => true
  | itself, slash => slash
  | toCreate, slash => !slash
  | never, _ => false

/-- The longest name a directory can hold, in bytes. -/
def maxNameBytes : Nat := 255

/-- The longest path a call accepts, in bytes. -/
def maxPathBytes : Nat := 4095

/-- How many links one walk goes through. -/
def maxLinks : Nat := 40

namespace Tree

/-- Walks until the steps are done or a link has to be gone through, which is left to `onLink`. The place walked from is a directory. -/
def walkToLink (t : Tree) (last : LastLink) (onLink : Place → Path → List Step → Except OsError Arrival) :
    Place → List Step → Except OsError Arrival
  | here, [] => .ok (.found here .directory false)
  | here, .here :: rest => walkToLink t last onLink here rest
  | here, .slash :: rest => walkToLink t last onLink here rest
  | here, .up :: rest => walkToLink t last onLink here.tail rest
  | here, .name s :: rest =>
    if maxNameBytes < s.utf8ByteSize then .error .nameTooLong
    else
      match t.node? (s :: here), rest with
      | none, [] => .ok (.vacant here s false)
      | none, [.slash] => .ok (.vacant here s true)
      | none, _ => .error .noEntry
      | some (.link target), [] =>
        if last.isFollowed false then onLink here target [] else .ok (.found (s :: here) (.link target) false)
      | some (.link target), [.slash] =>
        if last.isFollowed true then onLink here target [.slash] else .ok (.found (s :: here) (.link target) true)
      | some (.link target), rest => onLink here target rest
      | some .directory, [] => .ok (.found (s :: here) .directory false)
      | some .directory, [.slash] => .ok (.found (s :: here) .directory true)
      | some .directory, rest => walkToLink t last onLink (s :: here) rest
      | some n, [] => .ok (.found (s :: here) n false)
      | some n, [.slash] => .ok (.found (s :: here) n true)
      | some _, _ => .error .notDirectory

/-- Where a path starts to be walked from. -/
def startOf (cwd : Place) (p : Path) : Place :=
  if p.isAbsolute then [] else cwd

/-- Walks the steps, going through at most so many links. -/
def walkSteps (t : Tree) (last : LastLink) : Nat → Place → List Step → Except OsError Arrival
  | 0 => t.walkToLink last fun _ _ _ => .error .tooManyLinks
  | links + 1 => t.walkToLink last fun here target rest =>
    t.walkSteps last links (startOf here target) (target.steps ++ rest)

/-- Where a path leads from a working directory. -/
def walk (t : Tree) (cwd : Place) (p : Path) (last : LastLink) : Except OsError Arrival :=
  if p.text = "" then .error .noEntry
  else if maxPathBytes < p.text.utf8ByteSize then .error .nameTooLong
  else t.walkSteps last maxLinks (startOf cwd p) p.steps

end Tree

end BootDisk
