import BootDisk.Shell.Builtin.Options
import BootDisk.Shell.Splitting

/-!
# Variables

The commands of the shell that show, mark, hide and take away variables, and the one that reads a line into them.
-/

namespace BootDisk.Shell

/-- The variables that are shown, by name. -/
def shown (p : Process) (which : Variable → Bool) : List Variable :=
  (p.vars.filter which).mergeSort fun a b => precedes a.name b.name

/-- Shows variables as commands that set them again. -/
def showVariables (before : Octets) (which : Variable → Bool) : Sh Unit := do
  (shown (← get) which).forM fun v =>
    Sh.sayLine (before ++ v.name ++ v.value.elim [] fun value => '=' :: quoted value)

/-- Marks variables, and sets those that are given a value; shows those that are marked if there are none. -/
def markAll (command : String) (isMarked : Variable → Bool) (mark : Variable → Variable) (args : List Octets) : Sh Nat := do
  let g ← givenOptions [('p', false)] args
  if g.has 'p' ∨ g.args = [] then
    showVariables (ofText command ++ [' ']) isMarked
    return 0
  for a in g.args do
    let (name, value) := splitSetting a
    match value with
    | some value => Sh.assign name value
    | none => Sh.checkName name
    modify fun p => p.putVariable (mark ((p.lookup? name).getD { name := name, value := none }))
  return 0

/-- Exports variables. -/
def exportAll (args : List Octets) : Sh Nat :=
  markAll "export" Variable.isExported (fun v => { v with isExported := true }) args

/-- Sets variables for good. -/
def declareReadOnly (args : List Octets) : Sh Nat :=
  markAll "readonly" Variable.isReadOnly (fun v => { v with isReadOnly := true }) args

/-- Hides variables behind those of a function until it ends; with a hyphen, the options too. -/
def hideAll (args : List Octets) : Sh Nat := do
  if (← get).frames.isEmpty then Sh.fault (ofText "not in a function")
  for a in args do
    if a = ['-'] then Sh.save (.options (← get).options)
    else
      let (name, value) := splitSetting a
      Sh.checkName name
      Sh.save (.variable name ((← get).lookup? name))
      match value with
      | some value => Sh.setVariable name value false
      | none => if ((← get).lookup? name).isNone then modify fun p => p.putVariable { name := name, value := none }
  return 0

/-- Takes variables or functions away. -/
def unset (args : List Octets) : Sh Nat := do
  let g ← givenOptions [('v', false), ('f', false)] args
  let areFunctions := (g.letters.getLast?.map Prod.fst) == some 'f'
  for name in g.args do
    if areFunctions then modify fun p => { p with functions := p.functions.filter fun f => f.1 ≠ name }
    else Sh.unsetVariable name
  return 0

namespace Reading

/-- A line on the way: what has been read, in stretches that are split and octets that are not, and whether a backslash came last. -/
structure Draft where
  stretches : List Stretch := []
  here : List Mark := []
  escaped : Bool := false

/-- The stretch at hand, as the last one. -/
def Draft.closed (d : Draft) : Draft :=
  { d with stretches := ⟨.atSplitters, d.here.reverse⟩ :: d.stretches, here := [] }

/-- Adds an octet of a line. A backslash keeps the octet behind it, unless the line is taken as it is. -/
def Draft.add (d : Draft) (raw : Bool) (c : Char) : Draft :=
  if c = '\x00' then d
  else if d.escaped then
    let d := { d.closed with escaped := false }
    if c = '\n' then d else { d with stretches := .fixed [.octet c true] :: d.stretches }
  else if !raw ∧ c = '\\' then { d with escaped := true }
  else { d with here := .octet c false :: d.here }

/-- Reads bytes up to a line end that is not kept; gives also how many they are, and whether there was such a line end. -/
def line (raw : Bool) : List UInt8 → Nat → Draft → Draft × Nat × Bool
  | [], n, d => (d, n, false)
  | b :: bytes, n, d =>
    let c := Char.ofNat b.toNat
    if c = '\n' ∧ ¬ d.escaped then (d, n + 1, true) else line raw bytes (n + 1) (d.add raw c)

/-- Sets variables to fields, the last ones to nothing if there are not enough. -/
def assignFields : List Octets → List (List Mark) → Sh Unit
  | [], _ => pure ()
  | name :: names, fields => do
    Sh.assign name (Mark.flat (fields.headD []))
    assignFields names fields.tail

end Reading

/-- Reads a line of the input into variables. -/
def read (args : List Octets) : Sh Nat := do
  let g ← givenOptions [('p', true), ('r', false)] args
  if g.args = [] then Sh.fault (ofText "arg count")
  let p ← get
  let (bytes, index) :=
    match p.openFile? 0 with
    | some (i, f) => if f.isReadable then (Sh.rest p f, some (i, f)) else ([], none)
    | none => ([], none)
  let (draft, n, ended) := Reading.line (g.has 'r') bytes 0 {}
  match index with
  | some (i, f) => Sh.advance i f n
  | none => pure ()
  let p ← get
  Reading.assignFields g.args (Fields.ofStretches p.splitters (some g.args.length) draft.closed.stretches.reverse)
  return if ended then 0 else 1

end BootDisk.Shell
