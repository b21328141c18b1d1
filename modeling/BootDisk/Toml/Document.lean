import BootDisk.Toml.Reader

/-!
# The tree of a document

The statements of a document fall into blocks: the pairs before any header, and each header with the pairs under it. Blocks are put
into the tree one after the other. A header may open a table that was so far only implied, and a header in double brackets adds a
table to a list; anything else that is there twice makes the document malformed.
-/

namespace BootDisk.Toml

/-- The path of keys, the last key and the value of a pair. -/
abbrev Pair := List Key × Key × Node

/-- A header and the pairs under it. -/
structure Block where
  list : Bool
  path : List Key
  span : Span
  pairs : List Pair
  deriving Repr, Inhabited

/-- The pairs before any header, and the blocks. -/
def blocks : List Statement → List Pair × List Block
  | [] => ([], [])
  | .pair path key n :: ss =>
    let (ps, bs) := blocks ss
    ((path, key, n) :: ps, bs)
  | .header list path span :: ss =>
    let (ps, bs) := blocks ss
    ([], ⟨list, path, span, ps⟩ :: bs)

/-- Adds pairs one after the other. -/
def addPairs (es : Entries) (ps : List Pair) : Option Entries :=
  ps.foldlM (fun es (path, key, n) => addPair es path key n) es

/-- The stretch of a block: from its header to the end of the last value under it. -/
def Block.extent (b : Block) : Span :=
  match b.pairs.getLast? with
  | none => b.span
  | some (_, _, n) => ⟨b.span.start, (n.span?.getD b.span).stop⟩

/-- Adds a block to the tables that stand so far. -/
def addBlock (root : Entries) (b : Block) : Option Entries := do
  let key ← b.path.getLast?
  let add (_ : Form) (es : Entries) : Option Entries :=
    match es.find? key.name with
    | none => do
      let sub ← addPairs [] b.pairs
      let t := Node.table .header sub (some b.extent)
      some (es ++ [(key, if b.list then .tables [t] b.extent else t)])
    | some (.table .implied sub _) =>
      if b.list then none
      else do
        let sub ← addPairs sub b.pairs
        some (es.erase key.name ++ [(key, .table .header sub (some b.extent))])
    | some (.tables items span) =>
      if b.list then do
        let sub ← addPairs [] b.pairs
        let t := Node.table .header sub (some b.extent)
        some (es.replace key.name (.tables (items ++ [t]) ⟨span.start, b.extent.stop⟩))
      else none
    | some _ => none
  changeAt false add b.path.dropLast .header root

/-- The tree of the statements. -/
def ofStatements (ss : List Statement) : Option Entries := do
  let (pairs, bs) := blocks ss
  let root ← addPairs [] pairs
  bs.foldlM addBlock root

/-- The tree of a text, if the text is a document. -/
def parse (text : String) : Option Entries :=
  (statements text.toList).bind ofStatements

end BootDisk.Toml
