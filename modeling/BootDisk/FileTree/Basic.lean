import BootDisk.FileTree.Content
import BootDisk.Path

/-!
# The file tree

Places and what stands at them. A place is the list of names that lead to it from the root, the last one first, so that the place one
level up is the tail. The tree itself is a table from places to nodes; the root is always a directory and is not in the table.
-/

namespace BootDisk

/-- A place in the tree: the names on the way to it, the last one first. -/
abbrev Place := List String

/-- A regular file: its bytes, its permission bits, and when it was last marked as changed. -/
structure File where
  content : Content
  mode : Nat
  modified : Nat
  deriving DecidableEq, Repr, Inhabited

/-- What can stand at a place. The device is the one that swallows what is written and has nothing to read. -/
inductive Node where
  | file (f : File)
  | directory
  | link (target : Path)
  | device
  deriving DecidableEq, Repr, Inhabited

/-- A file tree. -/
structure Tree where
  entries : List (Place × Node)
  deriving Repr, Inhabited

namespace Node

/-- Whether the node is a regular file. -/
def isFile : Node → Bool
  | file _ => true
  | _ => false

/-- Whether the node is a directory. -/
def isDirectory : Node → Bool
  | directory => true
  | _ => false

/-- Whether the node is a link. -/
def isLink : Node → Bool
  | link _ => true
  | _ => false

end Node

namespace Tree

/-- What stands at a place. -/
def node? (t : Tree) (p : Place) : Option Node :=
  if p = [] then some .directory else t.entries.lookup p

/-- Puts a node at a place, over what stood there. -/
def put (t : Tree) (p : Place) (n : Node) : Tree :=
  ⟨(p, n) :: t.entries.filter fun e => e.1 != p⟩

/-- Takes away what stands at a place. -/
def erase (t : Tree) (p : Place) : Tree :=
  ⟨t.entries.filter fun e => e.1 != p⟩

/-- Takes away what stands at a place and everything below it. -/
def prune (t : Tree) (p : Place) : Tree :=
  ⟨t.entries.filter fun e => !(p.isSuffixOf e.1)⟩

/-- The names of the entries of a directory, in the order of the table. -/
def names (t : Tree) (p : Place) : List String :=
  t.entries.filterMap fun e =>
    match e.1 with
    | [] => none
    | n :: parent => if parent = p then some n else none

end Tree

namespace TreeAux

theorem lookup_filter_ne {p q : Place} (h : q ≠ p) (es : List (Place × Node)) :
    (es.filter fun e => e.1 != p).lookup q = es.lookup q := by
  induction es with
  | nil => rfl
  | cons e es ih =>
    obtain ⟨k, n⟩ := e
    by_cases hk : k = p
    · subst hk
      have : (q == k) = false := by simp [h]
      simp [ih, List.lookup_cons, this]
    · simp [hk, List.lookup_cons, ih]

theorem lookup_filter_self (p : Place) (es : List (Place × Node)) : (es.filter fun e => e.1 != p).lookup p = none := by
  induction es with
  | nil => rfl
  | cons e es ih =>
    obtain ⟨k, n⟩ := e
    by_cases hk : k = p
    · simp [hk, ih]
    · have : (p == k) = false := by simpa using fun h => hk h.symm
      simp [hk, List.lookup_cons, ih, this]

end TreeAux

namespace Tree

@[simp] theorem node?_nil (t : Tree) : t.node? [] = some .directory := by
  simp [node?]

@[simp] theorem node?_put_self (t : Tree) (p : Place) (n : Node) (h : p ≠ []) : (t.put p n).node? p = some n := by
  simp [node?, put, h]

theorem node?_put_of_ne (t : Tree) {p q : Place} (n : Node) (h : q ≠ p) : (t.put p n).node? q = t.node? q := by
  have hb : (q == p) = false := by simp [h]
  simp only [node?, put]
  split
  · rfl
  · simp only [List.lookup_cons, hb]
    exact TreeAux.lookup_filter_ne h _

@[simp] theorem node?_erase_self (t : Tree) (p : Place) (h : p ≠ []) : (t.erase p).node? p = none := by
  simp only [node?, erase, h, if_false]
  exact TreeAux.lookup_filter_self _ _

theorem node?_erase_of_ne (t : Tree) {p q : Place} (h : q ≠ p) : (t.erase p).node? q = t.node? q := by
  simp only [node?, erase]
  split
  · rfl
  · exact TreeAux.lookup_filter_ne h _

end Tree

end BootDisk
