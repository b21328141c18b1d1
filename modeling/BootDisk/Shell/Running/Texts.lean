import BootDisk.Shell.Expansion
import BootDisk.Shell.Builtin.Signals
import BootDisk.Shell.Reader.Commands

/-!
# Running texts

A text is read a line at a time, and a line is run before the next one is read. The actions of traps are such texts; they are run between
commands, and the last of them when the shell ends.
-/

namespace BootDisk.Shell

/-- What ends a shell that is left: a status, or a code that its last trap is still told. The code at hand is given. -/
def Leave.ending (status : Nat) : Leave → Except Status Nat
  | exit code => .ok code
  | failed code => .ok code
  | killed signal => .error (.killed signal)
  | replaced s => .error s
  | function code => .ok (code.getD status)
  | _ => .ok status

namespace Running

/-- How many lines of a text are run at most. -/
def maxLines : Nat := 1000000

/-- The way out of a text that cannot be read. -/
def syntaxFault {α : Type} (f : SyntaxFault) : Sh α := do
  modify fun p => { p with line := f.line }
  Sh.fault (ofText ("Syntax error: " ++ f.cause.message))

/-- Shows the lines of a file that have been read, if the shell is asked to; the last of them as a whole. -/
def showRead (fromFile : Bool) (before after : Octets) : Sh Unit := do
  if fromFile ∧ (← get).has .verbose then
    let read := before.take (before.length - after.length)
    let whole := if read.getLast? = some '\n' then read else read ++ after.takeWhile (· ≠ '\n') ++ (after.dropWhile (· ≠ '\n')).take 1
    let _ ← Sh.write 2 whole

/-- Runs the lines that are left of a text, at most so many; tells the code of the last command. -/
def lines (lv : Level) (stance : Stance) (fromFile : Bool) : Nat → Cursor → Nat → Sh Nat
  | 0, _, code => return code
  | n + 1, cursor, code => do
    let p ← get
    match Reader.line { cursor with aliases := p.aliases, documents := p.documents } with
    | .error f after =>
      showRead fromFile cursor.rest after.rest
      syntaxFault f
    | .ok line after =>
      modify fun p => { p with documents := after.documents, readingLine := after.line }
      showRead fromFile cursor.rest after.rest
      match line with
      | .finished => return code
      | .blank => lines lv stance fromFile n after code
      | .command c isLast =>
        let code ← lv.run { stance with isLast := stance.isLast && isLast } c
        lines lv stance fromFile n after code

/-- Runs a text. Zeros in it are passed over. -/
def text (lv : Level) (stance : Stance) (fromFile : Bool) (os : Octets) : Sh Nat :=
  Sh.restoring (fun before after => { after with readingLine := before.readingLine })
    (lines lv stance fromFile maxLines { rest := os.filter (· ≠ '\x00') } 0)

/-! ## Traps -/

/-- Runs the action of a trap. The code stays what it was, unless the action leaves a function with another one. -/
def action (lv : Level) (status : Nat) (os : Octets) : Sh Unit := do
  try
    let _ ← text lv {} false os
    Sh.setStatus status
  catch e =>
    match e with
    | .function (some code) => Sh.setStatus code
    | .function none => Sh.setStatus status
    | .loop _ => Sh.setStatus status
    | .turn _ => Sh.setStatus status
    | _ => pure ()
    modify fun p => { p with isAlerted := !p.caught.isEmpty }
    throw e

/-- Runs the action of the trap for a signal, if the signal has come. -/
def actionFor (lv : Level) (status signal : Nat) : Sh Unit := do
  let p ← get
  if p.caught.contains signal then
    set { p with caught := p.caught.filter (· ≠ signal) }
    match p.trap? signal with
    | some os => action lv status os
    | none => pure ()

/-- Runs the actions of traps for the signals that have come. -/
def traps (lv : Level) : Sh Unit := do
  Sh.receiveAll
  let p ← get
  if !p.isAlerted then return
  let status := p.trapped.getD p.status
  Sh.restoring (fun before after => { after with trapped := before.trapped }) do
    modify fun p => { p with trapped := some status, isAlerted := false }
    (List.range Signal.count).forM (actionFor lv status)

/-! ## The end of a shell -/

/-- Ends a shell with a code: runs the action of the trap for the end. -/
def ending (lv : Level) (code : Nat) : Sh Status := do
  let p ← get
  let code : Except Status Nat ←
    match p.trap? 0 with
    | none => pure (.ok code)
    | some os =>
      set { p with traps := p.traps.filter (fun t => t.1 ≠ 0), trapped := some code, status := code, loops := 0 }
      try
        let _ ← text lv {} false os
        pure (.ok code)
      catch e =>
        match e with
        | .function _ => pure (.ok code)
        | e => pure (e.ending code)
  match code with
  | .ok code => return .exited (code % 256)
  | .error s => return s

/-- Runs something as all that a shell does. -/
def whole (lv : Level) (x : Sh Nat) : Sh Status := do
  let left : Except Status Nat ←
    try
      pure (.ok (← x))
    catch e => pure (e.ending (← get).status)
  match left with
  | .ok code => ending lv code
  | .error s => return s

end Running

end BootDisk.Shell
