import BootDisk.Shell.Image
import BootDisk.Shell.Running.Compound
import BootDisk.Shell.Utility

/-!
# Starting programs

The shell as a program, the programs at hand, and the levels that the interpreter is made of: a level runs a command and leaves what is
inside it to the level below, so that commands can be nested as deep as there are levels.
-/

namespace BootDisk.Shell

namespace Running

/-! ## The shell -/

/-- The variables that a shell sets if it is not given them. -/
def usualVariables : List (Octets × Octets) :=
  [("PATH".toList, Search.usualPath), ("PS1".toList, ['#', ' ']), ("PS2".toList, ['>', ' ']), ("PS4".toList, ['+', ' '])]

/-- Gives a variable a value, whatever it was before. -/
def give (p : Process) (name value : Octets) : Process :=
  p.putVariable { (p.lookup? name).getD { name := name, value := none } with value := some value }

/-- The path that a shell takes its working directory to be at: the one it is told, if that leads there. -/
def startDirectory (p : Process) : Octets :=
  match p.valueOf? "PWD".toList with
  | some dir => if dir.head? = some '/' ∧ Places.directory? p dir = some p.cwd then dir else Process.pathOf p.cwd
  | none => Process.pathOf p.cwd

/-- Sets the variables of a shell that is started. Names that are no names of variables are dropped. -/
def startVariables : Sh Unit :=
  modify fun p =>
    let told := p.vars
    let p := { p with vars := usualVariables.map fun v => { name := v.1, value := some v.2 } }
    let p := (told.filter fun v => isName v.name).foldl Process.putVariable p
    let p := give p "IFS".toList [' ', '\t', '\n']
    let p := give p "OPTIND".toList ['1']
    let p := give p "PPID".toList (ofNat p.parentProcess)
    let dir := startDirectory p
    let p := p.putVariable { name := "PWD".toList, value := some dir, isExported := true }
    { p with directory := dir }

/-- Runs the commands that are read from the input. -/
def fromInput (lv : Level) : Sh Nat := do
  text lv {} true (ofBytes ((← Sh.readAll 0).getD []))

/-- The shell as a program: it runs a command that it is given, a file, or its input. -/
def shell (lv : Level) (args : List Octets) : Sh Nat := do
  startVariables
  modify fun p => { p with line := 0 }
  let r ← Options.ofArguments true args
  match r.hasCommand, r.args with
  | true, [] => Sh.fault (ofText "-c requires an argument")
  | true, os :: args =>
    modify fun p => { p with name := args.headD p.name, args := args.tail }
    let readsOn := (← get).has .stdin
    let code ← text lv { isLast := !readsOn } false os
    if readsOn then fromInput lv else return code
  | false, args =>
    match if (← get).has .stdin then [] else args with
    | path :: args =>
      let f ← Lead.openToRead path
      modify fun p => { p with name := path, args := args }
      text lv {} true (ofBytes (Sh.rest (← get) f))
    | [] =>
      Options.change .stdin true
      modify fun p => { p with args := args }
      fromInput lv

/-! ## Other programs -/

/-- Starts a program with other variables, or shows them all. -/
def env (lv : Level) : List Octets → Sh Nat
  | [] => do
    (← get).vars.forM fun v => Sh.sayLine (v.name ++ '=' :: v.value.getD [])
    let _ ← Sh.flush
    return 0
  | a :: args => do
    match splitSetting a with
    | (name, some value) =>
      modify fun p => p.putVariable { name := name, value := some value, isExported := true }
      env lv args
    | _ =>
      if a = ['-'] ∨ a = ['-', 'i'] then
        modify fun p => { p with vars := [] }
        env lv args
      else
        let path := ((← get).valueOf? "PATH".toList).getD ['/', 'b', 'i', 'n']
        match ← launch lv a args .noEntry (pathsOf path a) with
        | .ok s => throw (.replaced s)
        | .error e =>
          Sh.complain (ofText "env: '" ++ a ++ ofText ("': " ++ e.words))
          return Search.code e

/-- Runs one of the programs at hand. While it sleeps, what was put off is run. -/
def native (lv : Level) (program : String) (args : List Octets) : Sh Nat := do
  if program = "sh" ∨ program = "dash" then shell lv args
  else if program = "env" then env lv args
  else
    if program = "sleep" then catchUpAll lv
    Utility.run program args

/-- What a program that takes the place of a process starts with: what the process leads to and ignores, and the variables for programs. -/
def ownOfProgram (name : Octets) (p : Process) : Own :=
  { cwd := p.cwd
    directory := Process.pathOf p.cwd
    vars := p.environment.map fun v => { name := v.1, value := some v.2, isExported := true }
    name := name
    ignored := p.ignored ++ (p.traps.filter fun t => t.2 = [] ∧ t.1 ≠ 0).map Prod.fst
    files := p.files
    mask := p.mask
    process := p.process
    rootProcess := p.process
    parentProcess := p.parentProcess }

/-- Starts the file at a path as a program in the place of the process at hand, if it can be. -/
def execute (lv : Level) (path : Path) (name : Octets) (args : List Octets) : Sh (Except OsError Status) := do
  let p ← get
  match Image.load p.tree p.cwd path with
  | .error e => return .error e
  | .ok .unknown => return .error .badExecutable
  | .ok (.interpreted i argument) => lv.execute i (ofText i.text) (argument.toList ++ ofText path.text :: args)
  | .ok (.native program) => return .ok (← inProcess (ownOfProgram name p) (whole lv (native lv program args)))

/-! ## Levels -/

/-- The interpreter with so many levels. -/
def level : Nat → Level
  | 0 => ⟨fun _ _ => tooDeep, fun _ _ => tooDeep, fun _ => tooDeep, fun _ _ _ => return .error .tooManyLinks⟩
  | n + 1 =>
    let below := level n
    ⟨run below, Expansion.word below, output below, execute below⟩

/-- How many levels there are. -/
def maxDepth : Nat := 5000

end Running

end BootDisk.Shell
