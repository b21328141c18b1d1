import BootDisk.Shell.Running.Simple

/-!
# Compound commands

What each kind of command does, given the level below for the commands inside it. Between commands the actions of traps are run; behind
one that has failed the shell ends, if it was asked to and nothing looks at the failure.
-/

namespace BootDisk.Shell

namespace Running

/-! ## Loops -/

/-- How many turns a loop can take. -/
def maxTurns : Nat := 1000000

/-- A part of a turn of a loop: the code it ends with, or whether the loop goes on where the part was left. -/
def partOfTurn (x : Sh Nat) : Sh (Except Bool Nat) := do
  try
    return .ok (← x)
  catch e =>
    match e with
    | .turn (n + 2) => throw (.turn (n + 1))
    | .loop (n + 2) => throw (.loop (n + 1))
    | .turn _ => return .error true
    | .loop _ => return .error false
    | e => throw e

/-- Runs something in a loop. -/
def inLoop (x : Sh Nat) : Sh Nat :=
  Sh.restoring (fun before after => { after with loops := before.loops }) do
    modify fun p => { p with loops := p.loops + 1 }
    x

/-- Takes at most so many turns of a loop that goes on as long as a condition says so, and tells the code of the last one. -/
def turns (lv : Level) (stance : Stance) (stopWhen : Bool) (condition body : Command) : Nat → Nat → Sh Nat
  | 0, code => return code
  | n + 1, code => do
    match ← partOfTurn (lv.run { isTested := true } condition) with
    | .error true => turns lv stance stopWhen condition body n code
    | .error false => return code
    | .ok found =>
      if (found == 0) == stopWhen then return code
      match ← partOfTurn (lv.run { isTested := stance.isTested } body) with
      | .ok code => turns lv stance stopWhen condition body n code
      | .error true => turns lv stance stopWhen condition body n (← get).status
      | .error false => return (← get).status

/-- Takes a turn for every argument, and tells the code of the last one. -/
def turnsOver (lv : Level) (stance : Stance) (name : Octets) (body : Command) : List Octets → Nat → Sh Nat
  | [], code => return code
  | v :: vs, _ => do
    Sh.setVariable name v false
    match ← partOfTurn (lv.run { isTested := stance.isTested } body) with
    | .ok code => turnsOver lv stance name body vs code
    | .error true => turnsOver lv stance name body vs (← get).status
    | .error false => return (← get).status

/-! ## Choices -/

/-- Whether a text is one of those that some patterns stand for. -/
def fitsAny (lv : Level) (os : Octets) : List Word → Sh Bool
  | [] => return false
  | w :: ws => do if (← Expansion.patternOf lv w).covers os then return true else fitsAny lv os ws

/-- Runs the first arm that a text fits. -/
def choose (lv : Level) (stance : Stance) (os : Octets) : List (List Word × Option Command) → Sh Nat
  | [] => return 0
  | (ws, c) :: arms => do
    if ← fitsAny lv os ws then
      match c with
      | some c => lv.run stance c
      | none => return 0
    else choose lv stance os arms

/-! ## Commands -/

/-- Runs commands one after the other. -/
def sequence (lv : Level) (stance : Stance) : List Command → Sh Nat
  | [] => return 0
  | [c] => lv.run stance c
  | c :: cs => do
    let _ ← lv.run { isTested := stance.isTested } c
    sequence lv stance cs

/-- Notes the line that messages tell. -/
def atLine (line : Nat) : Sh Unit :=
  modify fun p => { p with line := line }

/-- Runs a command in a shell of its own, unless there is nothing left to do for this one. -/
def subshell (lv : Level) (stance : Stance) (line : Nat) (c : Command) (redirections : List Redirection) : Sh Nat := do
  atLine line
  let ls ← Sh.leads lv redirections
  let act : Sh Nat := do
    let code ← Sh.redirect lv false ls
    if code ≠ 0 then throw (.exit code)
    lv.run { stance with isLast := true } c
  if stance.isLast && !(← get).hasTraps then act
  else awaited (← inChild (whole lv act))

/-- Whether the shell ends where a command fails: a simple command, or one in a process of its own. -/
def isChecked : Command → Bool
  | .simple .. => true
  | .pipeline _ => true
  | .subshell .. => true
  | _ => false

/-- What a command does; tells its code. -/
def act (lv : Level) (stance : Stance) : Command → Sh Nat
  | .simple line settings words rs => simple lv stance line settings words rs
  | .pipeline cs => pipeline lv stance none cs
  | .background c => do
    putOff c
    return 0
  | .subshell line c rs => subshell lv stance line c rs
  | .redirected line c rs => do
    atLine line
    let ls ← Sh.leads lv rs
    Sh.keepingLeads ls do
      let code ← Sh.redirect lv true ls
      if code = 0 then lv.run { isTested := stance.isTested } c
      else if (← get).has .errexit && !stance.isTested then throw (.exit code)
      else return code
  | .negation c => do
    let code ← lv.run { isTested := true } c
    return if code = 0 then 1 else 0
  | .both a b => do
    let code ← lv.run { isTested := true } a
    if code = 0 then lv.run stance b else return code
  | .either a b => do
    let code ← lv.run { isTested := true } a
    if code = 0 then return code else lv.run stance b
  | .sequence cs => sequence lv stance cs
  | .conditional condition body otherwise => do
    if (← lv.run { isTested := true } condition) = 0 then lv.run stance body
    else
      match otherwise with
      | some c => lv.run stance c
      | none => return 0
  | .loop stopWhen condition body => inLoop (turns lv stance stopWhen condition body maxTurns 0)
  | .each line name words body => do
    atLine line
    let values ← words.mapM (Expansion.argumentsOf lv)
    inLoop (turnsOver lv stance name body values.flatten 0)
  | .choice line w arms => do
    atLine line
    choose lv stance (← Expansion.single lv Purpose.ofText w) arms
  | .define name body => do
    modify fun p => { p with functions := (name, body) :: p.functions.filter fun f => f.1 != name }
    return 0

/-- Runs a command, given the level below; tells its code. -/
def run (lv : Level) (stance : Stance) (c : Command) : Sh Nat := do
  if (← get).has .noexec then return (← get).status
  traps lv
  Sh.setStatus (← act lv stance c)
  traps lv
  let p ← get
  if p.has .errexit && !stance.isTested && isChecked c && p.status != 0 then throw (.exit p.status)
  return p.status

end Running

end BootDisk.Shell
