import BootDisk.Shell.Pattern

/-!
# Splitting expanded words

What expansion makes of a word: stretches of octets, of which those that came from values are split into fields. Blanks among the
splitters are taken together, and count for nothing at the start; any other splitter ends a field, even an empty one.
-/

namespace BootDisk.Shell

/-- A piece of an expanded word: an octet, which may be kept from meaning anything, a quote, or the seam between two arguments. -/
inductive Mark where
  | octet (c : Char) (kept : Bool)
  | quote
  | seam
  deriving DecidableEq, Repr, Inhabited

/-- How a stretch of an expanded word is split. -/
inductive Splitting where
  | whole
  | atSplitters
  | atSeams
  deriving DecidableEq, Repr, Inhabited

/-- A stretch of an expanded word. -/
structure Stretch where
  splitting : Splitting
  marks : List Mark
  deriving Repr, Inhabited

namespace Mark

/-- Octets as marks. -/
def ofOctets (kept : Bool) (os : Octets) : List Mark :=
  os.map fun c => octet c kept

/-- The octets of marks. -/
def flat (ms : List Mark) : Octets :=
  ms.filterMap fun
    | octet c _ => some c
    | quote => none
    | seam => some '\x00'

/-- The octets of marks, each with whether it is kept. -/
def glyphs (ms : List Mark) : List Glyph :=
  ms.filterMap fun
    | octet c kept => some ⟨c, kept⟩
    | quote => none
    | seam => some ⟨'\x00', true⟩

end Mark

namespace Stretch

/-- Marks that are not split. -/
def fixed (ms : List Mark) : Stretch :=
  ⟨.whole, ms⟩

/-- The marks of stretches. -/
def allMarks (ss : List Stretch) : List Mark :=
  ss.flatMap Stretch.marks

/-- The octets of stretches, taken as one text. -/
def flat (ss : List Stretch) : Octets :=
  Mark.flat (allMarks ss)

/-- The octets of stretches, taken as one pattern. -/
def glyphs (ss : List Stretch) : List Glyph :=
  Mark.glyphs (allMarks ss)

end Stretch

namespace Fields

/-- The splitters that are blanks. -/
def isBlank (c : Char) : Bool :=
  c == ' ' || c == '\t' || c == '\n'

/-- Fields on the way: those that are done, the last one first, and the marks of the one at hand, the last one first. With a limit, the last
field takes all that is left; what splitters stand at its end is known by the length of the field before them. -/
structure Draft where
  done : List (List Mark) := []
  field : List Mark := []
  blankBefore : Bool := false
  limit : Option Nat := none
  cut : Option Nat := none
  afterSeams : Bool := false
  inSeams : Bool := false
  deriving Inhabited

/-- Adds a mark to the field at hand. -/
def Draft.add (d : Draft) (m : Mark) : Draft :=
  { d with field := m :: d.field }

/-- Goes on with the last field that there may be. -/
def inLast (d : Draft) (m : Mark) (splits isBlank : Bool) : Draft :=
  let d' := d.add m
  if isBlank then { d' with cut := d.cut.or (some d.field.length) }
  else { d' with cut := if splits && d.blankBefore then d.cut else none, blankBefore := false }

/-- Goes on behind blanks that ended a field. A splitter that is no blank belongs to them. -/
def behindBlank (d : Draft) (m : Mark) (splits isBlank : Bool) : Draft :=
  if isBlank then d else if splits then { d with blankBefore := false } else { d.add m with blankBefore := false }

/-- Goes on with a mark that splits. -/
def atSplitter (d : Draft) (m : Mark) (isBlank : Bool) : Draft :=
  let blank := if d.afterSeams || d.inSeams then d.blankBefore else isBlank
  if d.field.isEmpty && blank then { d with blankBefore := false }
  else if d.limit = some 1 then { d.add m with limit := some 0, cut := some d.field.length, blankBefore := blank }
  else { d with done := d.field.reverse :: d.done, field := [], blankBefore := blank, limit := d.limit.map (· - 1) }

/-- Goes on with a mark of a stretch that is split at some octets. -/
def step (splitters : Octets) (d : Draft) (m : Mark) : Draft :=
  let splits :=
    match m with
    | .octet c _ => splitters.contains c
    | .quote => false
    | .seam => true
  let blank :=
    splits &&
      match m with
      | .octet c _ => isBlank c
      | _ => true
  if d.limit = some 0 then inLast d m splits blank
  else if d.blankBefore then behindBlank d m splits blank
  else if splits then atSplitter d m blank
  else d.add m

/-- Goes on with a stretch. -/
def stretch (splitters : Octets) (d : Draft) (s : Stretch) : Draft :=
  match s.splitting with
  | .whole => { d with field := s.marks.reverse ++ d.field }
  | .atSplitters => s.marks.foldl (step splitters) { d with afterSeams := d.inSeams, inSeams := false, blankBefore := false }
  | .atSeams => s.marks.foldl (step []) { d with afterSeams := d.inSeams, inSeams := true, blankBefore := false }

/-- The fields of a draft that is done. The last one is there if it holds anything, or if it is an argument. -/
def finish (d : Draft) : List (List Mark) :=
  let field := d.field.reverse
  let field := if d.inSeams then field else d.cut.elim field field.take
  if field.isEmpty && !d.inSeams then d.done.reverse else (field :: d.done).reverse

/-- The fields that stretches are split into, at most so many. -/
def ofStretches (splitters : Octets) (limit : Option Nat) (ss : List Stretch) : List (List Mark) :=
  finish (ss.foldl (stretch splitters) { limit := limit })

end Fields

end BootDisk.Shell
