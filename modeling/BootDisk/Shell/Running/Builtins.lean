import BootDisk.Shell.Builtin.Echo
import BootDisk.Shell.Builtin.Places
import BootDisk.Shell.Builtin.Test
import BootDisk.Shell.Builtin.Variables
import BootDisk.Shell.Redirecting
import BootDisk.Shell.Running.Programs

/-!
# Commands of the shell

The commands of the shell that run others, leave what is being run, wait, and keep aliases; and all commands of the shell by their names.
-/

namespace BootDisk.Shell

namespace Running

/-! ## Ways out -/

/-- Ends the shell. -/
def exit (args : List Octets) : Sh Nat := do
  let code ←
    match args with
    | a :: _ => Sh.number a
    | [] => do
      let p ← get
      pure (p.trapped.getD p.status)
  throw (.exit code)

/-- Leaves a function, or a text that is run. -/
def leave (args : List Octets) : Sh Nat := do
  match args with
  | a :: _ => throw (.function (some (← Sh.number a)))
  | [] => throw (.function none)

/-- Leaves loops, or the turn they are in; where there are not as many loops all of them are meant. -/
def leaveLoops (way : Nat → Leave) (args : List Octets) : Sh Nat := do
  let n ←
    match args with
    | a :: _ => do
      let n ← Sh.number a
      if n = 0 then Sh.illegalNumber a
      pure n
    | [] => pure 1
  let n := min n (← get).loops
  if n = 0 then return 0
  Sh.setStatus 0
  throw (way n)

/-! ## Texts and programs -/

/-- Runs its arguments as a text. -/
def eval (lv : Level) (stance : Stance) (args : List Octets) : Sh Nat :=
  text lv { isTested := stance.isTested } false (joined args)

/-- The path that a file of commands is at: where the search path leads to if there is no slash in its name. -/
def sourcePath (name : Octets) : Sh Octets := do
  let p ← get
  if name.contains '/' then return name
  match (Search.candidates (Search.path p) name).find? fun path => p.tree.isFile p.cwd ⟨toText path⟩ with
  | some path => return path
  | none => Sh.fault (name ++ ofText ": not found")

/-- Runs the commands of a file in the shell itself. -/
def source (lv : Level) (args : List Octets) : Sh Nat := do
  match ← withoutOptions args with
  | [] => return 0
  | name :: _ =>
    let path ← sourcePath name
    let f ← Lead.openToRead path
    modify fun p => { p with commandName := some path }
    try
      text lv {} true (ofBytes (Sh.rest (← get) f))
    catch e =>
      match e with
      | .function code => return code.getD (← get).status
      | e => throw e

/-- Has a program take the place of the shell. -/
def exec (lv : Level) (args : List Octets) : Sh Nat := do
  match ← withoutOptions args with
  | [] => return 0
  | name :: args => replace lv name args (pathsOf (Search.path (← get)) name)

/-- Tells what a name stands for. What is to be run has been found before. -/
def command (args : List Octets) : Sh Nat := do
  let g ← givenOptions [('p', false), ('v', false), ('V', false)] args
  match g.args with
  | name :: _ => if g.has 'v' || g.has 'V' then tellMeaning (g.has 'p') (g.has 'V') name else return 0
  | [] => return 0

/-! ## Jobs -/

/-- The job that an argument means, if there is one. -/
def jobOf? (p : Process) (a : Octets) : Option Job :=
  match a with
  | '%' :: n =>
    if n = [] ∨ n = ['%'] ∨ n = ['+'] then p.jobs.getLast?
    else (toNat? n).bind fun n => if n = 0 then none else p.jobs[n - 1]?
  | a => (toNat? a).bind fun n => p.jobs.find? fun j => j.process == n

/-- Notes that a job has been waited for. -/
def noteWaited (j : Job) : Sh Unit :=
  modify fun p => { p with jobs := p.jobs.map fun i => if i.process == j.process then { i with isWaitedFor := true } else i }

/-- The code of the job that an argument means; 127 if there is none. -/
def codeOfJob (a : Octets) : Sh Nat := do
  if a.head? ≠ some '%' then
    let _ ← Sh.number a
  let p ← get
  match jobOf? p a with
  | none => if a.head? = some '%' then Sh.fault (ofText "No such job: " ++ a) else return 127
  | some j =>
    noteWaited j
    match p.endings.lookup j.process with
    | some s => awaited s
    | none => return 127

/-- Waits for commands in the background, unless a signal comes that a trap is set for. -/
def wait (lv : Level) (args : List Octets) : Sh Nat := do
  let args ← withoutOptions args
  let before := (← get).caught
  catchUpAll lv
  Sh.receiveAll
  let p ← get
  match p.caught.find? fun s => s ≠ Signal.child && !before.contains s with
  | some s => return 128 + s
  | none =>
    if args = [] then
      p.jobs.forM noteWaited
      return 0
    else return ((← args.mapM codeOfJob).getLast?).getD 0

/-- How the state of a job is told. -/
def stateOf (p : Process) (j : Job) : String :=
  match p.endings.lookup j.process with
  | none => "Running"
  | some (.exited 0) => "Done"
  | some (.exited code) => s!"Done({code})"
  | some (.killed signal) => Signal.words signal

/-- How wide the state of a job is told. -/
def jobWidth : Nat := 33

/-- Lists the commands in the background; those that have ended are not listed again. -/
def jobs (args : List Octets) : Sh Nat := do
  let _ ← givenOptions [('l', false), ('p', false)] args
  let p ← get
  let count := p.jobs.length
  p.jobs.zipIdx.reverse.forM fun (j, i) =>
    let mark := if i + 1 = count then '+' else if i + 2 = count then '-' else ' '
    let line := '[' :: ofNat (i + 1) ++ [']', ' ', mark, ' '] ++ ofText (stateOf p j)
    Sh.sayLine (line ++ List.replicate (max 1 (jobWidth - line.length)) ' ')
  modify fun p => { p with jobs := p.jobs.filter fun j => !hasEnded p j }
  return 0

/-- Brings a job to the front, which cannot be done without control of jobs. -/
def foreground (args : List Octets) : Sh Nat := do
  let args ← withoutOptions args
  let p ← get
  match args with
  | [] => if p.jobs = [] then Sh.fault (ofText "No current job") else Sh.fault (ofText "job not created under job control")
  | a :: _ =>
    match jobOf? p a with
    | some _ => Sh.fault (ofText "job " ++ a ++ ofText " not created under job control")
    | none => Sh.fault (ofText "No such job: " ++ a)

/-! ## Aliases -/

/-- An alias as it is listed. -/
def shownAlias (a : Octets × Octets) : Octets :=
  a.1 ++ '=' :: quoted a.2

/-- Sets aliases, or tells them. -/
def setAliases (args : List Octets) : Sh Nat := do
  if args = [] then
    (Process.inRows Process.variableRows Prod.fst (← get).aliases).forM fun a => Sh.sayLine (shownAlias a)
    return 0
  let codes ← args.mapM fun a => do
    let (name, value) := nameAndValue a
    match value with
    | some value =>
      modify fun p =>
        if (p.aliases.lookup name).isSome then { p with aliases := p.aliases.map fun b => if b.1 == name then (name, value) else b }
        else { p with aliases := p.aliases ++ [(name, value)] }
      return 0
    | none =>
      match (← get).aliases.lookup a with
      | some value =>
        Sh.sayLine (shownAlias (a, value))
        return 0
      | none =>
        Sh.complain (ofText "alias: " ++ a ++ ofText " not found")
        return 1
  return codes.foldl max 0
where
  /-- A setting cut into its name, which is not empty, and its value. -/
  nameAndValue (a : Octets) : Octets × Option Octets :=
    let (name, value) := splitSetting (a.drop 1)
    (a.take 1 ++ name, value)

/-- Takes aliases away. -/
def dropAliases (args : List Octets) : Sh Nat := do
  let g ← givenOptions [('a', false)] args
  if g.has 'a' then
    modify fun p => { p with aliases := [] }
    return 0
  let codes ← g.args.mapM fun name => do
    let p ← get
    if (p.aliases.lookup name).isSome then
      set { p with aliases := p.aliases.filter fun a => a.1 != name }
      return 0
    else
      Sh.complain (ofText "unalias: " ++ name ++ ofText " not found")
      return 1
  return codes.foldl max 0

/-! ## All commands of the shell -/

/-- Sets options and arguments, or lists the variables. -/
def setOptions (args : List Octets) : Sh Nat := do
  if args = [] then showVariables [] fun v => v.value.isSome
  else
    let r ← Options.ofArguments false args
    if r.args ≠ [] then Options.setArguments r.args
  return 0

/-- Tells the time that was used. -/
def times (_ : List Octets) : Sh Nat := do
  Sh.sayLine (ofText "0m0.000000s 0m0.000000s")
  Sh.sayLine (ofText "0m0.000000s 0m0.000000s")
  return 0

/-- Tells or sets bounds for programs. There are none, and none are kept. -/
def ulimit (args : List Octets) : Sh Nat := do
  let known := ['H', 'S', 'a', 't', 'f', 'd', 's', 'c', 'm', 'l', 'p', 'n', 'v', 'w', 'r'].map fun c => (c, false)
  let g ← givenOptions known args
  if g.args = [] then Sh.sayLine (ofText "unlimited")
  return 0

/-- The command of the shell of a name. -/
def builtin? (lv : Level) (stance : Stance) (name : String) : Option (List Octets → Sh Nat) :=
  match name with
  | ":" => some fun _ => return 0
  | "." => some (source lv)
  | "[" => some bracketed
  | "alias" => some setAliases
  | "bg" => some foreground
  | "break" => some (leaveLoops .loop)
  | "cd" => some cd
  | "command" => some command
  | "continue" => some (leaveLoops .turn)
  | "echo" => some echo
  | "eval" => some (eval lv stance)
  | "exec" => some (exec lv)
  | "exit" => some exit
  | "export" => some exportAll
  | "false" => some fun _ => return 1
  | "fg" => some foreground
  | "getopts" => some getopts
  | "hash" => some hash
  | "jobs" => some jobs
  | "kill" => some kill
  | "local" => some hideAll
  | "printf" => some printf
  | "pwd" => some pwd
  | "read" => some read
  | "readonly" => some declareReadOnly
  | "return" => some leave
  | "set" => some setOptions
  | "shift" => some shift
  | "test" => some test
  | "times" => some times
  | "trap" => some trap
  | "true" => some fun _ => return 0
  | "type" => some type
  | "ulimit" => some ulimit
  | "umask" => some umask
  | "unalias" => some dropAliases
  | "unset" => some unset
  | "wait" => some (wait lv)
  | _ => none

/-- Writes what a command of the shell has held back, as far as it can be written. -/
def flushed {α : Type} (x : Sh α) : Sh α := do
  try
    x
  catch e =>
    let _ ← Sh.flush
    throw e

/-- Runs a command of the shell. What it writes is written at its end; if that cannot be done it has failed. -/
def builtin (lv : Level) (stance : Stance) (name : Octets) (args : List Octets) : Sh Nat :=
  Sh.restoring (fun before after => { after with commandName := before.commandName }) do
    modify fun p => { p with commandName := some name }
    match builtin? lv stance (toText name) with
    | none => return 127
    | some f =>
      let code ← flushed (f args)
      if ← Sh.flush then return code
      else
        Sh.warn (name ++ ofText ": I/O error")
        return Nat.lor code 1

end Running

end BootDisk.Shell
