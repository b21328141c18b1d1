import BootDisk.Shell.Octets

/-!
# Patterns

Patterns for texts: a star for any text, a question mark for any one octet, brackets for one octet out of several. An octet that is
quoted stands for itself, and so does one behind a backslash.
-/

namespace BootDisk.Shell

/-- An octet of an expanded word, and whether it is quoted. -/
structure Glyph where
  octet : Char
  quoted : Bool
  deriving DecidableEq, Repr, Inhabited

/-- The octets of glyphs. -/
def octets (gs : List Glyph) : Octets :=
  gs.map Glyph.octet

/-- What can be between brackets: the octets from one to another, or those of a class. -/
inductive Member where
  | range (first last : Char)
  | ofClass (name : String)
  deriving DecidableEq, Repr, Inhabited

/-- A piece of a pattern. -/
inductive PatternItem where
  | exactly (c : Char)
  | anyOne
  | anyText
  | oneOf (negated : Bool) (members : List Member)
  deriving DecidableEq, Repr, Inhabited

/-- A pattern. -/
abbrev Pattern := List PatternItem

namespace Pattern

/-- Whether an octet shows a mark when it is printed. -/
def isGraphic (c : Char) : Bool :=
  33 ≤ c.toNat && c.toNat ≤ 126

/-- The classes of octets, by name. -/
def classes : List (String × (Char → Bool)) :=
  [("alnum", Char.isAlphanum), ("cntrl", fun c => c.toNat < 32 || c.toNat == 127), ("lower", Char.isLower), ("space", isSpace),
    ("alpha", Char.isAlpha), ("digit", Char.isDigit), ("print", fun c => c == ' ' || isGraphic c), ("upper", Char.isUpper),
    ("blank", fun c => c == ' ' || c == '\t'), ("graph", isGraphic), ("punct", fun c => isGraphic c && !c.isAlphanum),
    ("xdigit", fun c => c.isDigit || ('a' ≤ c && c ≤ 'f') || ('A' ≤ c && c ≤ 'F'))]

/-- The place of an octet in a range; the upper half comes before the lower one. -/
def rank (c : Char) : Int :=
  if c.toNat < 128 then c.toNat else (c.toNat : Int) - 256

/-- Whether an octet is meant by what is between brackets. -/
def isMeant : Member → Char → Bool
  | .range first last, c => rank first ≤ rank c && rank c ≤ rank last
  | .ofClass name, c => ((classes.lookup name).map fun f => f c).getD false

/-- The class that is named behind a bracket, and what is behind its name. -/
def class? (gs : List Glyph) : Option (Member × List Glyph) :=
  (classes.map Prod.fst).findSome? fun name =>
    let spelt := (":" ++ name ++ ":]").toList
    if gs.take spelt.length = spelt.map (⟨·, false⟩) then some (.ofClass name, gs.drop spelt.length) else none

/-- What is between brackets, in at most so many steps, and what is behind the closing one; a closing bracket that comes first stands for
itself. -/
def members : Nat → Bool → List Glyph → Option (List Member × List Glyph)
  | 0, _, _ => none
  | _ + 1, _, [] => none
  | n + 1, atStart, g :: gs =>
    let one : Option (List Member × List Glyph) :=
      match gs with
      | ⟨'-', false⟩ :: last :: rest =>
        if last = ⟨']', false⟩ then (members n false gs).map fun (ms, rest) => (.range g.octet g.octet :: ms, rest)
        else (members n false rest).map fun (ms, rest) => (.range g.octet last.octet :: ms, rest)
      | _ => (members n false gs).map fun (ms, rest) => (.range g.octet g.octet :: ms, rest)
    if g = ⟨']', false⟩ ∧ ¬ atStart then some ([], gs)
    else
      match if g = ⟨'[', false⟩ then class? gs else none with
      | some (m, rest) => (members n false rest).map fun (ms, rest) => (m :: ms, rest)
      | none => one

/-- A choice between brackets, behind the opening one. -/
def bracket (gs : List Glyph) : Option (PatternItem × List Glyph) :=
  let (negated, gs) :=
    match gs with
    | ⟨'!', false⟩ :: rest => (true, rest)
    | _ => (false, gs)
  (members (gs.length + 1) true gs).map fun (ms, rest) => (.oneOf negated ms, rest)

/-- Glyphs with the octets behind backslashes quoted, and without those backslashes. A backslash before what is quoted already stands for
itself. -/
def unescaped : List Glyph → List Glyph
  | [] => []
  | [g] => [g]
  | g :: h :: gs =>
    if g = ⟨'\\', false⟩ then
      if h.quoted then ⟨'\\', true⟩ :: unescaped (h :: gs) else ⟨h.octet, true⟩ :: unescaped gs
    else g :: unescaped (h :: gs)

/-- The pattern that glyphs spell, read in at most so many steps. -/
def ofGlyphsWithin : Nat → List Glyph → Pattern
  | 0, _ => []
  | _ + 1, [] => []
  | n + 1, g :: gs =>
    if g.quoted then .exactly g.octet :: ofGlyphsWithin n gs
    else if g.octet = '*' then .anyText :: ofGlyphsWithin n gs
    else if g.octet = '?' then .anyOne :: ofGlyphsWithin n gs
    else if g.octet = '[' then
      match bracket gs with
      | some (item, rest) => item :: ofGlyphsWithin n rest
      | none => .exactly '[' :: ofGlyphsWithin n gs
    else .exactly g.octet :: ofGlyphsWithin n gs

/-- The pattern that glyphs spell. -/
def ofGlyphs (gs : List Glyph) : Pattern :=
  let gs := unescaped gs
  ofGlyphsWithin gs.length gs

/-- Whether a piece of a pattern stands for an octet. -/
def admits : PatternItem → Char → Bool
  | .exactly d, c => c == d
  | .anyOne, _ => true
  | .anyText, _ => true
  | .oneOf negated ms, c => (ms.any fun m => isMeant m c) != negated

/-- The ends of a text, the whole of it first. -/
def ends : Octets → List Octets
  | [] => [[]]
  | c :: cs => (c :: cs) :: ends cs

/-- Whether a pattern stands for a whole text. -/
def covers : Pattern → Octets → Bool
  | [], os => os.isEmpty
  | .anyText :: ps, os => ps.isEmpty || (ends os).any (covers ps)
  | _ :: _, [] => false
  | p :: ps, c :: cs => admits p c && covers ps cs

/-- Whether a bracket may be closed, behind the first octet that it holds. -/
def isClosed (gs : List Glyph) : Bool :=
  let inner := if gs.head? = some ⟨'!', false⟩ then gs.drop 1 else gs
  (inner.drop 1).contains ⟨']', false⟩

/-- Whether glyphs may stand for more than themselves. -/
def isOpen : List Glyph → Bool
  | [] => false
  | g :: gs =>
    (!g.quoted && (g.octet == '*' || g.octet == '?' || (g.octet == '[' && isClosed gs))) || isOpen gs

/-- Whether a pattern stands for a text, of which what comes behind a zero does not count. -/
def coversToZero (p : Pattern) (os : Octets) : Bool :=
  covers p (os.takeWhile (· ≠ '\x00'))

/-- How many octets at the front a pattern stands for: the fewest or the most, if any. -/
def frontLength (p : Pattern) (longest : Bool) (os : Octets) : Option Nat :=
  let lengths := List.range (os.length + 1)
  (if longest then lengths.reverse else lengths).find? fun n => coversToZero p (os.take n)

/-- How many octets at the back a pattern stands for: the fewest or the most, if any. The most are looked for up to the first zero only. -/
def backLength (p : Pattern) (longest : Bool) (os : Octets) : Option Nat :=
  let fits (n : Nat) : Bool := coversToZero p (os.drop (os.length - n))
  if longest then
    let beforeZero := (os.takeWhile (· ≠ '\x00')).length
    ((List.range (beforeZero + 1)).map (os.length - ·)).find? fits
  else (List.range (os.length + 1)).find? fits

/-- A text without the part at one end that a pattern stands for. -/
def trim (p : Pattern) (atStart longest : Bool) (os : Octets) : Octets :=
  if atStart then os.drop ((frontLength p longest os).getD 0) else os.take (os.length - (backLength p longest os).getD 0)

end Pattern

end BootDisk.Shell
