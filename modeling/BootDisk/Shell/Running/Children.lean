import BootDisk.Shell.Running.Texts
import BootDisk.Shell.Search

/-!
# Processes of their own

What is run apart from the shell, in a process that takes over a copy of the shell's own part: parts of pipelines, outputs, commands in
the background. Processes run one after the other: a command in the background is put off until something waits for it, and the part of a
pipeline that writes is over before the one that reads begins.
-/

namespace BootDisk.Shell

namespace Running

/-! ## Starting and ending -/

/-- Whether a job has ended. -/
def hasEnded (p : Process) (j : Job) : Bool :=
  (p.endings.lookup j.process).isSome

/-- What a new process takes over from a shell: all but the traps that do something, and what the shell is in the midst of. -/
def ownOfChild (number : Nat) (o : Own) : Own :=
  { o with
    process := number
    parentProcess := o.process
    traps := o.traps.filter fun t => t.2 = []
    caught := []
    isAlerted := false
    trapped := none
    jobs := []
    held := [] }

/-- Runs something in a new process, with a shell's own part. -/
def inProcess (own : Own) (x : Sh Status) : Sh Status := fun p =>
  let mine := p.toOwn
  match x { p with toOwn := own } with
  | .ok s q => .ok s { q with toOwn := mine }
  | .error e q =>
    match e.ending 0 with
    | .ok code => .ok (.exited code) { q with toOwn := mine }
    | .error s => .ok s { q with toOwn := mine }

/-- Notes that a child has ended, which is a signal to those who set a trap for it, and takes the signals that the child has sent. -/
def noteEnd : Sh Unit := do
  if ((← get).trap? Signal.child).isSome then Sh.note Signal.child
  Sh.receiveAll

/-- Runs something in a new process that is waited for. -/
def inChild (x : Sh Status) : Sh Status := do
  modify fun p => { p with nextProcess := p.nextProcess + 1, jobs := p.jobs.filter fun j => !(j.isWaitedFor && hasEnded p j) }
  let p ← get
  let s ← inProcess (ownOfChild (p.nextProcess - 1) p.toOwn) x
  noteEnd
  return s

/-- Tells the code of an end that was waited for, and reports a signal. -/
def awaited (s : Status) : Sh Nat := do
  match Ending.report? s with
  | some words => Sh.complain (ofText words)
  | none => pure ()
  return Ending.code s

/-! ## Commands in the background -/

/-- Puts a command off, as a process of its own with no input, which is not to be interrupted. -/
def putOff (c : Command) : Sh Unit := do
  let index ← Sh.openAs { target := .device, isReadable := true }
  modify fun p =>
    let number := p.nextProcess
    let own := ownOfChild number p.toOwn
    let own :=
      { own with
        ignored := Signal.interrupt :: Signal.quit :: own.ignored
        files := (0, index) :: own.files.filter fun f => f.1 != 0 }
    { p with
      nextProcess := number + 1
      deferred := p.deferred ++ [⟨own, c⟩]
      jobs := (p.jobs.filter fun j => !(j.isWaitedFor && hasEnded p j)) ++ [⟨number, false⟩]
      lastBackground := some number }

/-- Runs a command that was put off. -/
def runDeferred (lv : Level) (d : Deferred) : Sh Unit := do
  let s ← inProcess d.own (whole lv (lv.run { isLast := true } d.command))
  modify fun p => { p with endings := (d.own.process, s) :: p.endings }
  noteEnd

/-- Runs the commands that were put off, and those that they put off, of processes from a number on; at most so many. -/
def catchUp (lv : Level) (number : Nat) : Nat → Sh Unit
  | 0 => pure ()
  | n + 1 => do
    let p ← get
    match p.deferred.find? fun d => number ≤ d.own.process with
    | none => pure ()
    | some d =>
      set { p with deferred := p.deferred.filter fun e => e.own.process != d.own.process }
      runDeferred lv d
      catchUp lv number n

/-- How many commands are put off at most. -/
def maxDeferred : Nat := 10000

/-- Runs all commands that were put off. -/
def catchUpAll (lv : Level) : Sh Unit :=
  catchUp lv 0 maxDeferred

/-! ## Outputs and pipelines -/

/-- Runs a command in a process of its own, and what that process puts off. -/
def apart (lv : Level) (stance : Stance) (prepare : Sh Unit) (c : Command) : Sh Status := do
  let number := (← get).nextProcess
  let s ← inChild (whole lv do
    prepare
    lv.run { stance with isLast := true } c)
  catchUp lv number maxDeferred
  return s

/-- The output of a command. -/
def output (lv : Level) (c : Command) : Sh Octets := do
  let (source, sink) ← Sh.openPipe
  let s ← apart lv {} (Sh.lead 1 sink) c
  let p ← get
  let bytes := (p.opened[source]?.map (Sh.rest p)).getD []
  let code ← awaited s
  modify fun p => { p with substituted := code }
  return ofBytes bytes

/-- Has the shell remember where the program of a command in a pipeline is, if its name is written out. -/
def remember (c : Command) : Sh Unit := do
  match c with
  | .simple _ _ (w :: _) _ =>
    match Word.plain? w with
    | some name =>
      if isName name && !isBuiltin name && ((← get).functions.lookup name).isNone then
        let _ ← Search.remembering name
    | none => pure ()
  | _ => pure ()

/-- Runs commands, each in a process of its own, with the output of the one before as its input; tells the code of the last one. The open
file that the first one reads from is given, if it is not the input at hand. -/
def pipeline (lv : Level) (stance : Stance) : Option Nat → List Command → Sh Nat
  | _, [] => return 0
  | source, [c] => do
    remember c
    awaited (← apart lv stance (source.forM (Sh.lead 0)) c)
  | source, c :: cs => do
    remember c
    let (next, sink) ← Sh.openPipe
    let s ← apart lv stance
      (do
        source.forM (Sh.lead 0)
        Sh.lead 1 sink)
      c
    let _ ← awaited s
    pipeline lv stance (some next) cs

end Running

end BootDisk.Shell
