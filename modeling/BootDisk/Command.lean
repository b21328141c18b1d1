import BootDisk.Path

/-!
# Commands

The command line of another program, with the variables and the directory it is started in, and the ways a started program can end.
-/

namespace BootDisk

/-- How to start another program. `note` opens the message if it ends badly; `echo` has the command line shown first. -/
structure Command where
  program : String
  args : List String := []
  env : List (String × String) := []
  dir : Option Path := none
  note : Option String := none
  echo : Bool := false
  deriving DecidableEq, Repr, Inhabited

namespace Command

/-- The command line as messages show it. -/
def display (c : Command) : String :=
  " ".intercalate (c.program :: c.args)

/-- The command with more arguments behind those it has. -/
def addArgs (c : Command) (args : List String) : Command :=
  { c with args := c.args ++ args }

end Command

/-- How a program ended: by itself with a code, or by a signal. -/
inductive Status where
  | exited (code : Nat)
  | killed (signal : Nat)
  deriving DecidableEq, Repr, Inhabited

namespace Status

/-- A program that ends with code 0 has done its work. -/
def isSuccess : Status → Bool
  | exited code => code == 0
  | killed _ => false

/-- The names of the signals, by number. -/
def signalNames : List (Nat × String) :=
  [(1, "SIGHUP"), (2, "SIGINT"), (3, "SIGQUIT"), (4, "SIGILL"), (5, "SIGTRAP"), (6, "SIGABRT"), (7, "SIGBUS"), (8, "SIGFPE"),
   (9, "SIGKILL"), (10, "SIGUSR1"), (11, "SIGSEGV"), (12, "SIGUSR2"), (13, "SIGPIPE"), (14, "SIGALRM"), (15, "SIGTERM"),
   (16, "SIGSTKFLT"), (17, "SIGCHLD"), (18, "SIGCONT"), (19, "SIGSTOP"), (20, "SIGTSTP"), (21, "SIGTTIN"), (22, "SIGTTOU"),
   (23, "SIGURG"), (24, "SIGXCPU"), (25, "SIGXFSZ"), (26, "SIGVTALRM"), (27, "SIGPROF"), (28, "SIGWINCH"), (29, "SIGIO"),
   (30, "SIGPWR"), (31, "SIGSYS")]

/-- The words for an end. -/
def message : Status → String
  | exited code => s!"exit status: {code}"
  | killed signal =>
    match signalNames.lookup signal with
    | some name => s!"signal: {signal} ({name})"
    | none => s!"signal: {signal}"

end Status

end BootDisk
