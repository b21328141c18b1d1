import BootDisk.Machine.Basic
import BootDisk.Text.Blank

/-!
# Running commands

A command is started and waited for. Either what it writes is kept for the message in case it ends badly, or it writes where the run
itself writes. A command that did not start and a command that ended badly are failures of their own.
-/

namespace BootDisk

/-- A text without the blank characters around it. -/
def trimmedErrors (err : List UInt8) : String :=
  Text.trim (Text.decodeLossy err)

namespace Command

/-- Whether a command holds the character that no argument, variable or directory can hold. -/
def hasNul (c : Command) : Bool :=
  let dir := c.dir.elim [] fun d => [d.text]
  (c.program :: c.args ++ c.env.flatMap (fun e => [e.1, e.2]) ++ dir).any fun s => s.toList.contains '\x00'

/-- Starts a command and waits for its end. Every attempt is noted among the children. -/
def launch (programs : Programs) (c : Command) : Act (Status × List UInt8 × List UInt8) := fun m =>
  let m := { m with children := m.children ++ [c] }
  if c.hasNul then .error (.ofIo .nulInArgument) m
  else
    match programs c m.surroundings m.tree with
    | (.failed e, t) => .error (.ofIo (.os e)) { m with tree := t }
    | (.ended status out err, t) => .ok (status, out, err) { m with tree := t }

/-- Shows the command line, if the command asks for it. -/
def announce (c : Command) : Act Unit :=
  if c.echo then Act.print s!"  $ {c.display}" else pure ()

/-- Runs a command that is expected to end well. What it writes is not shown; if it ends badly its errors are part of the message. -/
def run (programs : Programs) (c : Command) : Act Unit := do
  c.announce
  let (status, _, err) ← during (.spawning c.display) (c.launch programs)
  if status.isSuccess then pure () else fail (.commandFailed c.note c.display status (some (trimmedErrors err)))

/-- Runs a command whose outputs are those of the run. -/
def runShown (programs : Programs) (c : Command) : Act Status := do
  c.announce
  let (status, out, err) ← during (.spawning c.display) (c.launch programs)
  modify fun m => { m with out := m.out ++ ⟨out.toArray⟩, err := m.err ++ ⟨err.toArray⟩ }
  if status.isSuccess then pure status else fail (.commandFailed c.note c.display status none)

end Command

end BootDisk
