import BootDisk.Decimal.Binary64
import BootDisk.Mismatch

/-!
# Configuration documents

The tree that a TOML document denotes. Every value and every key carries the stretch of text it was written in, so that a
disagreement with the configuration can be shown in place; a table that is only implied by longer keys has no stretch of its own.
-/

namespace BootDisk.Toml

/-- A stretch of a text, told by how many characters are still ahead where it starts and where it ends. -/
structure Span where
  start : Nat
  stop : Nat
  deriving DecidableEq, Repr, Inhabited

/-- A key and where it is written. -/
structure Key where
  name : String
  span : Span
  deriving DecidableEq, Repr, Inhabited

/-- How a table came about: by its own header, on the way to the header of another table, by dotted keys, or in braces. -/
inductive Form where
  | header
  | implied
  | dotted
  | inline
  deriving DecidableEq, Repr, Inhabited

/-- Whether other statements may still add to a table of this form. -/
def Form.isImplicit : Form → Bool
  | implied | dotted => true
  | header | inline => false

/-- A value of a document. The entries of a table are in the order in which their keys came up. -/
inductive Node where
  | string (s : String) (span : Span)
  | integer (n : Int) (span : Span)
  | floating (x : Decimal.Binary64) (span : Span)
  | boolean (b : Bool) (span : Span)
  | moment (span : Span)
  | array (items : List Node) (span : Span)
  | table (form : Form) (entries : List (Key × Node)) (span : Option Span)
  | tables (items : List Node) (span : Span)
  deriving Repr, Inhabited

/-- The entries of a table in order. -/
abbrev Entries := List (Key × Node)

/-- Where a value is written, if it is written in one stretch. -/
def Node.span? : Node → Option Span
  | string _ s | integer _ s | floating _ s | boolean _ s | moment s | array _ s | tables _ s => some s
  | table _ _ s => s

/-- The kind of a value as messages tell it. Dates and times are told as maps. -/
def Node.kind : Node → Found
  | string s _ => .string s
  | integer n _ => .integer n
  | floating x _ => .floating x.positional
  | boolean b _ => .boolean b
  | moment _ => .map
  | array _ _ => .sequence
  | table _ _ _ => .map
  | tables _ _ => .sequence

end BootDisk.Toml
