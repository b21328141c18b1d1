import BootDisk.Shell.Builtin.Options

/-!
# Traps and signals

The commands of the shell that say what signals are to do, and that send them. A signal to the shell itself does its work at once unless
it is trapped; one to a shell that waits for this one is kept for it.
-/

namespace BootDisk.Shell

namespace Sh

/-- Notes that the trap for a signal is due. -/
def note (signal : Nat) : Sh Unit :=
  modify fun p => { p with caught := if p.caught.contains signal then p.caught else signal :: p.caught, isAlerted := true }

/-- What a signal does to the shell: nothing, the end, or a note that its trap is due. -/
def receive (signal : Nat) : Sh Unit := do
  let p ← get
  if signal = 0 then return
  if signal = Signal.kill then throw (.killed signal)
  if p.ignores signal then return
  if (p.trap? signal).isSome then note signal
  else if !Signal.harmless.contains signal then throw (.killed signal)

/-- Takes the signals that were sent to the shell meanwhile. -/
def receiveAll : Sh Unit := do
  let p ← get
  let mine := p.signals.filter fun s => s.1 == p.process
  if mine.isEmpty then return
  modify fun p => { p with signals := p.signals.filter fun s => s.1 != p.process }
  mine.reverse.forM fun s => receive s.2

/-- Sends a signal to a process; says whether there is one. -/
def send (process signal : Nat) : Sh Bool := do
  let p ← get
  if process = p.process then
    receive signal
    return true
  else if p.deferred.any fun d => d.own.process == process then
    let isHarmless := Signal.harmless.contains signal || p.deferred.any fun d =>
      d.own.process == process && (d.own.ignored.contains signal && signal != Signal.kill)
    if !isHarmless then
      modify fun p =>
        { p with
          deferred := p.deferred.filter fun d => d.own.process != process
          endings := (process, .killed signal) :: p.endings }
    return true
  else if firstProcess ≤ process ∧ process < p.process then
    if (p.endings.lookup process).isSome then return false
    modify fun p => { p with signals := (process, signal) :: p.signals }
    return true
  else return false

end Sh

/-- The words for a wrong use of the command that sends signals. -/
def killUsage : Octets :=
  ofText "Usage: kill [-s sigspec | -signum | -sigspec] [pid | job]... or\nkill -l [exitstatus]"

namespace Kill

/-- Tells the names of all signals, or the one of a signal or a code. -/
def tell (args : List Octets) : Sh Nat := do
  match args with
  | [] =>
    Sh.sayLine ['0']
    ((List.range Signal.count).drop 1).forM fun n => Sh.sayLine (ofText (Signal.name n))
    return 0
  | a :: _ =>
    let n ← Sh.number a
    let n := if 128 < n then n - 128 else n
    if 0 < n ∧ n < Signal.count then
      Sh.sayLine (ofText (Signal.name n))
      return 0
    else Sh.fault (ofText "invalid signal number or exit status: " ++ a)

/-- The process that an argument gives. A whole group of processes is never there: the shell starts none. -/
def target (a : Octets) : Sh (Option Nat) := do
  match a with
  | '%' :: job =>
    let jobs := (← get).jobs
    let isThere :=
      if job = [] ∨ job = ['%'] ∨ job = ['+'] then jobs ≠ [] else ((toNat? job).bind fun n => jobs[n - 1]?).isSome
    if isThere then return none else Sh.fault (ofText "No such job: " ++ a)
  | '-' :: rest =>
    let _ ← Sh.number rest
    return none
  | a => return some (← Sh.number a)

/-- Sends a signal to processes; the code says whether there were all of them. -/
def sendAll (signal : Nat) : List Octets → Sh Nat
  | [] => return 0
  | a :: args => do
    let isSent ← match ← target a with
      | some process => Sh.send process signal
      | none => pure false
    if isSent then sendAll signal args
    else
      Sh.warn (ofText "No such process\n")
      let _ ← sendAll signal args
      return 1

end Kill

/-- Sends signals. -/
def kill (args : List Octets) : Sh Nat := do
  match args with
  | [] => Sh.fault killUsage
  | ('-' :: spec) :: rest =>
    match Signal.read? 1 spec with
    | some n => if rest = [] then Sh.fault killUsage else Kill.sendAll n rest
    | none =>
      let g ← givenOptions [('l', false), ('s', true)] args
      let signal ← match g.value? 's' with
        | some name =>
          match Signal.read? 1 name with
          | some n => pure (some n)
          | none => Sh.fault (ofText "invalid signal number or name: " ++ name)
        | none => pure none
      if g.has 'l' then if signal.isSome then Sh.fault killUsage else Kill.tell g.args
      else if g.args = [] then Sh.fault killUsage
      else Kill.sendAll (signal.getD Signal.terminate) g.args
  | args => Kill.sendAll Signal.terminate args

/-- Sets what signals do, up to the first that there is not; shows what has been set if nothing is said. -/
def trap (args : List Octets) : Sh Nat := do
  match ← withoutOptions args with
  | [] =>
    let p ← get
    (List.range Signal.count).forM fun n =>
      match p.trap? n with
      | some action => Sh.sayLine (ofText "trap -- " ++ quoted action ++ ofText (" " ++ Signal.name n))
      | none => pure ()
    return 0
  | a :: rest =>
    let isReset := rest = [] ∨ ((toNat? a).bind fun _ => Signal.read? 0 a).isSome
    let action := if isReset ∨ a = ['-'] then none else some a
    setAll action (if isReset then a :: rest else rest)
where
  /-- Sets what some signals do. -/
  setAll (action : Option Octets) : List Octets → Sh Nat
    | [] => return 0
    | s :: rest => do
      match Signal.read? 0 s with
      | none =>
        Sh.complain (ofText "trap: " ++ s ++ ofText ": bad trap")
        return 1
      | some n =>
        modify fun p =>
          let others := p.traps.filter fun t => t.1 ≠ n
          { p with traps := (action.map fun a => (n, a)).toList ++ others }
        setAll action rest

end BootDisk.Shell
