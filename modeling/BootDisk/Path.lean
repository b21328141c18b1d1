import BootDisk.Text.Fields

/-!
# Paths

A path is the text it was given as: nothing is normalised, so that a message shows what the user wrote. Joining, the last name and
its parts, and the path one level up are read off the text.
-/

namespace BootDisk

/-- A path as written. -/
structure Path where
  text : String
  deriving DecidableEq, Repr, Inhabited

/-- What a path names step by step. A dot counts only at the very start of a relative path. -/
inductive Component where
  | root
  | here
  | up
  | name (cs : List Char)
  deriving DecidableEq, Repr

namespace Path

/-- An absolute path starts at the root. -/
def isAbsolute (p : Path) : Bool :=
  p.text.toList.head? == some '/'

/-- The path of `right` as seen from `left`: an absolute right side stands alone, and otherwise the two are written one after the
other with one slash in between, unless the left side is empty or brings its own. -/
def join (left right : Path) : Path :=
  if right.isAbsolute then right
  else if left.text.toList = [] ∨ left.text.toList.getLast? = some '/' then ⟨left.text ++ right.text⟩
  else ⟨left.text ++ "/" ++ right.text⟩

/-- The steps a path names; empty parts and dots in the middle name none. -/
def components (p : Path) : List Component :=
  let parts := Text.fields '/' p.text.toList
  let first : List Component :=
    if p.isAbsolute then [.root] else if parts.head? = some ['.'] then [.here] else []
  first ++ parts.filterMap fun cs =>
    if cs = [] ∨ cs = ['.'] then none else if cs = ['.', '.'] then some .up else some (.name cs)

/-- The text of one step. -/
def componentText : Component → List Char
  | .root => []
  | .here => ['.']
  | .up => ['.', '.']
  | .name cs => cs

/-- The shortest path that names these steps. -/
def ofComponents : List Component → Path
  | [.root] => ⟨"/"⟩
  | cs => ⟨String.ofList (Text.unfields '/' (cs.map componentText))⟩

/-- The path without its last step; the root and the empty path have none to give up. -/
def parent? (p : Path) : Option Path :=
  match p.components.reverse with
  | [] => none
  | .root :: _ => none
  | _ :: rest => some (ofComponents rest.reverse)

/-- The last name of a path, if its last step is a name. -/
def fileName? (p : Path) : Option String :=
  match p.components.getLast? with
  | some (.name cs) => some (String.ofList cs)
  | _ => none

/-- A name cut at its last dot; a name that has no dot, or none but its first character, is in one piece. -/
def cutAtLastDot (name : List Char) : List Char × Option (List Char) :=
  let tail := name.reverse.takeWhile (· ≠ '.')
  match name.reverse.dropWhile (· ≠ '.') with
  | [] => (name, none)
  | [_] => (name, none)
  | _ :: head => (head.reverse, some tail.reverse)

/-- The last name without its extension. -/
def fileStem? (p : Path) : Option String :=
  p.fileName?.map fun n => String.ofList (cutAtLastDot n.toList).1

/-- What follows the last dot of the last name. -/
def extension? (p : Path) : Option String :=
  p.fileName?.bind fun n => (cutAtLastDot n.toList).2.map String.ofList

end Path

end BootDisk
