import BootDisk.Decimal.Shortest
import BootDisk.Text.Quoted

/-!
# Where a document does not fit

A document that is well formed may still not describe the record it should: a value of another kind, a number out of range, a field
nobody knows. Each disagreement is named here, with the words it is reported by. The words are the same for every document language.
-/

namespace BootDisk

/-- The kind of a value that a document holds, with the value where a message shows it. Numbers with a point carry their text, which
each language lays out in its own way. -/
inductive Found where
  | integer (n : Int)
  | floating (text : String)
  | boolean (b : Bool)
  | string (s : String)
  | sequence
  | map
  | null
  deriving DecidableEq, Repr

/-- The words for a kind of value. -/
def Found.describe : Found → String
  | integer n => s!"integer `{n}`"
  | floating s => s!"floating point `{s}`"
  | boolean b => s!"boolean `{b}`"
  | string s => s!"string {Text.quoted s}"
  | sequence => "sequence"
  | map => "map"
  | null => "null"

/-- What a record expects of a value. -/
inductive Expected where
  | string
  | path
  | boolean
  | sequence
  | word64
  | word32
  | record (name : String)
  deriving DecidableEq, Repr

/-- The words for an expectation. -/
def Expected.describe : Expected → String
  | string => "a string"
  | path => "path string"
  | boolean => "a boolean"
  | sequence => "a sequence"
  | word64 => "u64"
  | word32 => "u32"
  | record name => s!"struct {name}"

/-- A disagreement between a document and the record it should describe. -/
inductive Mismatch where
  | wrongKind (found : Found) (expected : Expected)
  | outOfRange (value : Int) (expected : Expected)
  | unknownField (name : String) (known : List String)
  | missingField (name : String)
  | repeatedField (name : String)
  | tooFewFields (given : Nat) (record : String) (size : Nat)
  deriving DecidableEq, Repr

/-- A field name as messages show it. -/
def tick (name : String) : String :=
  s!"`{name}`"

/-- The known fields as a message lists them. -/
def describeKnown : List String → String
  | [a] => tick a
  | [a, b] => s!"{tick a} or {tick b}"
  | names => "one of " ++ ", ".intercalate (names.map tick)

/-- The words for a disagreement. -/
def Mismatch.message : Mismatch → String
  | wrongKind found expected => s!"invalid type: {found.describe}, expected {expected.describe}"
  | outOfRange value expected => s!"invalid value: integer `{value}`, expected {expected.describe}"
  | unknownField name known => s!"unknown field {tick name}, expected {describeKnown known}"
  | missingField name => s!"missing field {tick name}"
  | repeatedField name => s!"duplicate field {tick name}"
  | tooFewFields given record size => s!"invalid length {given}, expected struct {record} with {size} elements"

end BootDisk
