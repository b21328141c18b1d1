import BootDisk.Shell.Utility.Basic

/-!
# Showing files

Files are shown one after the other as if they were one. On demand lines are numbered, empty lines in a row are made one, the ends of
lines are marked, and octets that cannot be shown are written with signs that can.
-/

namespace BootDisk.Shell.Utility

/-- What is done to the text that is shown. -/
structure Look where
  numbersAll : Bool
  numbersFilled : Bool
  squeezes : Bool
  marksEnds : Bool
  marksTabs : Bool
  marksOthers : Bool

namespace Look

/-- The look that was asked for. -/
def ofGiven (g : Given) : Look :=
  let asked := fun (letters : List Char) => letters.any g.has
  { numbersAll := asked ['n'] && !asked ['b']
    numbersFilled := asked ['b']
    squeezes := asked ['s']
    marksEnds := asked ['A', 'e', 'E']
    marksTabs := asked ['A', 't', 'T']
    marksOthers := asked ['A', 'e', 't', 'v'] }

/-- Whether text is shown as it is. -/
def isPlain (k : Look) : Bool :=
  !(k.numbersAll || k.numbersFilled || k.squeezes || k.marksEnds || k.marksTabs || k.marksOthers)

end Look

/-- What is known of the lines that were shown: the number of the next one, whether it is about to start, and how many empty lines were
the last. -/
structure Shown where
  next : Nat
  isFresh : Bool
  empties : Nat
  /-- What is shown, the last octet first. -/
  reversed : Octets

namespace Shown

/-- Shows octets. -/
def add (s : Shown) (os : Octets) : Shown :=
  { s with reversed := os.reverse ++ s.reversed }

/-- Shows the number of the next line, at the end of six places. -/
def numbered (s : Shown) (wanted : Bool) : Shown :=
  if wanted then
    let digits := ofNat s.next
    { s.add (List.replicate (6 - digits.length) ' ' ++ digits ++ ['\t']) with next := s.next + 1 }
  else s

/-- Ends a line. -/
def endLine (k : Look) (s : Shown) : Shown :=
  if s.isFresh then
    if k.squeezes && 0 < s.empties then s
    else { (s.numbered k.numbersAll).add (if k.marksEnds then ['$', '\n'] else ['\n']) with empties := s.empties + 1 }
  else { s.add (if k.marksEnds then ['$', '\n'] else ['\n']) with isFresh := true }

end Shown

/-- An octet below the middle with signs that can be shown. -/
def caret (c : Char) : Octets :=
  if c.toNat < 32 then ['^', Char.ofNat (c.toNat + 64)] else if c.toNat = 127 then ['^', '?'] else [c]

namespace Look

/-- An octet as it is shown; what follows it matters for the return at the end of a line. -/
def octet (k : Look) (c : Char) (next : Option Char) : Octets :=
  if c = '\t' then (if k.marksTabs then ['^', 'I'] else [c])
  else if k.marksOthers then (if c.toNat < 128 then caret c else 'M' :: '-' :: caret (Char.ofNat (c.toNat - 128)))
  else if c = '\r' ∧ k.marksEnds ∧ next = some '\n' then ['^', 'M']
  else [c]

/-- Shows one octet. -/
def step (k : Look) (s : Shown) (c : Char × Option Char) : Shown :=
  if c.1 = '\n' then s.endLine k
  else
    let s := s.numbered (s.isFresh && (k.numbersAll || k.numbersFilled))
    { s.add (k.octet c.1 c.2) with isFresh := false, empties := 0 }

/-- Shows a file after those before it. -/
def apply (k : Look) (s : Shown) (os : Octets) : Shown :=
  (os.zip (os.tail.map some ++ [none])).foldl k.step { s with reversed := [] }

end Look

/-- Whether a file is the one that is written to, and there is something in it that would be written to it again. -/
def isOutput (p : Process) (t : Target) : Bool :=
  match t with
  | .file place =>
    (p.openFile? 1).any (fun f => f.2.target == t) && (match p.tree.node? place with
      | some (.file file) => file.content.length != 0
      | _ => false)
  | _ => false

/-- What an operand holds, or why it cannot be shown. A dash is the input. -/
def contentOf (a : Octets) : Sh (Except Octets Octets) := do
  let p ← get
  if a = ['-'] ∨ Lead.numberOf? a = some 0 then
    match p.openFile? 0 with
    | none => return .error (ofText "-: Bad file descriptor")
    | some (_, f) =>
      if f.target = .directory then return .error (ofText "-: Is a directory")
      else if isOutput p f.target then return .error (ofText "-: input file is output file")
      else return .ok (ofBytes ((← Sh.readAll 0).getD []))
  else
    match p.tree.entry p.cwd (asPath a) .through, p.tree.readAll p.cwd (asPath a) with
    | .ok (place, _), .ok c =>
      if isOutput p (.file place) then return .error (plainName a ++ ofText ": input file is output file")
      else return .ok (ofBytes c.toList)
    | .error e, _ => return .error (plainName a ++ ofText ": " ++ ofText (errorText e))
    | _, .error e => return .error (plainName a ++ ofText ": " ++ ofText (errorText e))

/-- Shows one more operand. -/
def showNext (k : Look) (before : Nat × Shown) (a : Octets) : Sh (Nat × Shown) := do
  match ← contentOf a with
  | .error why => return (← refuse "cat" why, before.2)
  | .ok os =>
    if k.isPlain then
      Sh.say os
      return before
    else
      let s := k.apply before.2 os
      Sh.say s.reversed.reverse
      return (before.1, s)

/-- Shows files, or the input if there are none. -/
def cat (args : List Octets) : Sh Nat := do
  let known : Known :=
    ⟨"AbeEnstTuv".toList, [],
      [("number-nonblank", 'b'), ("number", 'n'), ("squeeze-blank", 's'), ("show-nonprinting", 'v'), ("show-ends", 'E'),
        ("show-tabs", 'T'), ("show-all", 'A')]⟩
  withGiven "cat" known args fun g => do
    if ((← get).openFile? 1).isNone then
      Sh.complain (ofText "cat: standard output: Bad file descriptor")
      return 1
    let operands := if g.operands = [] then [['-']] else g.operands
    return (← operands.foldlM (showNext (Look.ofGiven g)) (0, ⟨1, true, 0, []⟩)).1

end BootDisk.Shell.Utility
