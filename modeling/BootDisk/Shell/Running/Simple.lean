import BootDisk.Shell.Running.Builtins

/-!
# Simple commands

A simple command is expanded word by word: first as far as it takes to know what is run, since that decides how the other words are
expanded and what becomes of a fault; then the rest, the redirections, and the settings. What is run is a function, a command of the shell
or a program.
-/

namespace BootDisk.Shell

namespace Running

/-- A simple command as far as it has been expanded: the arguments there are, of which the first ones may only say how the rest is to be
run, and the words that are left. -/
structure Call where
  given : List Octets
  start : Nat := 0
  left : List Word
  special : Option Bool := none
  usual : Bool := false
  skipsFunctions : Bool := false
  deriving Inhabited

namespace Call

/-- What is run, and its arguments. -/
def args (c : Call) : List Octets :=
  c.given.drop c.start

/-- The name of what is run. -/
def name (c : Call) : Octets :=
  c.args.headD []

/-- Whether what is run is a special command of the shell. -/
def isSpecial (c : Call) : Bool :=
  c.special == some true

/-- Whether what is run may be a program in the place of the shell. -/
def isExec (c : Call) : Bool :=
  c.name == "exec".toList

/-- Whether settings among the arguments are expanded like settings. -/
def takesSettings (c : Call) : Bool :=
  ["alias", "export", "local", "readonly"].any fun s => s.toList == c.name

end Call

/-! ## What is run -/

/-- Expands words up to the first that there are arguments for. -/
def fill (lv : Level) : List Word → Sh (List Octets × List Word)
  | [] => return ([], [])
  | w :: ws => do
    match ← Expansion.argumentsOf lv w with
    | [] => fill lv ws
    | args => return (args, ws)

/-- Expands words as long as an argument has not been reached. -/
def reach (lv : Level) (n : Nat) (c : Call) : Sh Call := do
  if n < c.given.length then return c
  else
    let (args, left) ← fill lv c.left
    return { c with given := c.given ++ args, left := left }

/-- Passes over the options behind the word that asks for a command; says whether what is run is behind them. At most so many are passed
over. -/
def passOptions (lv : Level) : Nat → Nat → Call → Sh (Call × Bool)
  | 0, _, c => return (c, false)
  | n + 1, i, c => do
    let c ← reach lv i c
    match c.given[i]? with
    | none => return (c, false)
    | some ['-', '-'] =>
      let c ← reach lv (i + 1) c
      return if i + 1 < c.given.length then ({ c with start := i + 1, skipsFunctions := true }, true) else (c, false)
    | some ('-' :: x :: xs) =>
      if (x :: xs).all (· == 'p') then passOptions lv n (i + 1) { c with usual := true } else return (c, false)
    | some _ => return ({ c with start := i, skipsFunctions := true }, true)

/-- How many words may ask for a command one after the other, and how many options are passed over. -/
def maxPassed : Nat := 1000

/-- Finds out what is run. -/
def resolve (lv : Level) : Nat → Call → Sh Call
  | 0, c => return c
  | n + 1, c => do
    let p ← get
    if !c.skipsFunctions && (p.functions.lookup c.name).isSome then return c
    else if !isBuiltin c.name then return c
    else
      let c := { c with special := some (c.special.getD (Shell.isSpecial c.name)) }
      if c.name = "command".toList then
        let (c, isBehind) ← passOptions lv maxPassed (c.start + 1) c
        if isBehind then resolve lv n c else return c
      else return c

/-- Expands an argument, or a setting among the arguments if there may be any. -/
def argument (lv : Level) (takesSettings : Bool) (w : Word) : Sh (List Octets) := do
  match if takesSettings then w.setting? else none with
  | some (name, value) => return [name ++ '=' :: (← Expansion.single lv Purpose.ofSetting value)]
  | none => Expansion.argumentsOf lv w

/-- Expands the words of a simple command. -/
def callOf (lv : Level) (words : List Word) : Sh Call := do
  let (given, left) ← fill lv words
  if given = [] then return { given := [], left := [] }
  let c ← resolve lv maxPassed { given := given, left := left }
  let more ← c.left.mapM (argument lv c.takesSettings)
  return { c with given := c.given ++ more.flatten, left := [] }

/-! ## Settings and traces -/

/-- Makes a setting: for as long as the command runs, for good, or for good and for programs. Gives it as it is traced. -/
def makeSetting (lv : Level) (isLocal exported : Bool) (s : Octets × Word) : Sh Octets := do
  let value ← Expansion.single lv Purpose.ofSetting s.2
  if isLocal then Sh.setLocally s.1 value true else Sh.setVariable s.1 value exported
  return s.1 ++ '=' :: value

/-- What traces begin with. -/
def tracePrompt (lv : Level) : Sh Octets := do
  let os := ((← get).valueOf? "PS4".toList).getD []
  match Reader.asDocument { rest := os } with
  | .error _ _ => return os
  | .ok w _ =>
    Sh.restoring (fun before after => { after with isPrompting := before.isPrompting }) do
      modify fun p => { p with isPrompting := true }
      Expansion.single lv Purpose.ofDocument w

/-- Shows a command that is about to be run, where the error output led before. -/
def trace (lv : Level) (errors : Option Nat) (shown : List Octets) : Sh Unit := do
  let p ← get
  if p.has .xtrace ∧ ¬ p.isPrompting then
    let line := (← tracePrompt lv) ++ joined shown ++ ['\n']
    match errors, (← get).opened with
    | some index, opened =>
      match opened[index]? with
      | some f => if f.isWritable then Sh.pour index f (toBytes line)
      | none => pure ()
    | none, _ => pure ()

/-! ## Running -/

/-- How deep functions may call functions. -/
def maxCalls : Nat := 1000

/-- The fault of functions that call functions too deep. -/
def tooDeep {α : Type} : Sh α :=
  Sh.fault (ofText s!"Maximum function recursion depth ({maxCalls}) reached")

/-- Calls a function. Its arguments end with it, and so do ways out that are meant for it. -/
def call (lv : Level) (stance : Stance) (body : Command) (args : List Octets) : Sh Nat :=
  Sh.restoring
    (fun before after =>
      { after with args := before.args, optionPlace := before.optionPlace, loops := before.loops, calls := before.calls }) do
    let p ← get
    if maxCalls ≤ p.calls then tooDeep
    set { p with args := args, optionPlace := {}, loops := 0, calls := p.calls + 1 }
    try
      lv.run { isTested := stance.isTested } body
    catch e =>
      match e with
      | .function code => return code.getD (← get).status
      | e => throw e

/-- Runs what a name stands for. Where there is none, what is left is the code of an output that was put in. -/
def dispatch (lv : Level) (stance : Stance) (c : Call) : Sh Nat := do
  let p ← get
  match c.args with
  | [] => return p.substituted
  | name :: args =>
    match if c.skipsFunctions then none else p.functions.lookup name with
    | some body => call lv stance body args
    | none => if isBuiltin name then builtin lv stance name args else external lv stance c.usual name args

/-- Runs a command that has been expanded: makes its redirections and its settings, and runs it. Faults of the shell's commands are codes,
but for those of special ones. -/
def perform (lv : Level) (stance : Stance) (c : Call) (isLocal : Bool) (settings : List (Octets × Word)) (ls : List Lead) : Sh Nat := do
  let errors := (← get).files.lookup 2
  let code ← Sh.redirect lv true ls
  if code ≠ 0 then
    Sh.setStatus code
    if c.isSpecial then throw (.failed code)
    return code
  let shown ← settings.mapM (makeSetting lv isLocal (c.isExec && 1 < c.args.length))
  trace lv errors (shown ++ c.given)
  try
    dispatch lv stance c
  catch e =>
    match e with
    | .failed code => if c.special = some false then return code else throw e
    | e => throw e

/-- Runs a simple command. -/
def simple (lv : Level) (stance : Stance) (line : Nat) (settings : List (Octets × Word)) (words : List Word)
    (redirections : List Redirection) : Sh Nat := do
  modify fun p => { p with line := line, substituted := 0 }
  let c ← callOf lv words
  let isLocal := c.given ≠ [] && !c.isSpecial
  let act : Sh Nat := do
    let ls ← Sh.leads lv redirections
    if c.isExec then perform lv stance c isLocal settings ls
    else Sh.keepingLeads ls (perform lv stance c isLocal settings ls)
  if isLocal then Sh.inFrame act else act

end Running

end BootDisk.Shell
