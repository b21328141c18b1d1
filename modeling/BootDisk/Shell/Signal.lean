import BootDisk.Command
import BootDisk.Shell.Number

/-!
# Signals

The signals by their numbers: the names that the shell knows them by, and the words for the end of a program that one of them has ended.
The end of the shell itself counts as signal 0 where a trap is set for it.
-/

namespace BootDisk.Shell

namespace Signal

/-- How many signals there are, 0 included. -/
def count : Nat := 65

/-- The signals that the shell knows by a name. -/
def named : List (Nat × String) :=
  [(0, "EXIT"), (1, "HUP"), (2, "INT"), (3, "QUIT"), (4, "ILL"), (5, "TRAP"), (6, "ABRT"), (7, "BUS"), (8, "FPE"), (9, "KILL"),
    (10, "USR1"), (11, "SEGV"), (12, "USR2"), (13, "PIPE"), (14, "ALRM"), (15, "TERM"), (17, "CHLD"), (18, "CONT"), (19, "STOP"),
    (20, "TSTP"), (21, "TTIN"), (22, "TTOU"), (23, "URG"), (24, "XCPU"), (25, "XFSZ"), (26, "VTALRM"), (27, "PROF"), (28, "WINCH"),
    (29, "IO"), (30, "PWR"), (31, "SYS")]

/-- The name of a signal. Those for the use of programs are counted from both ends; others have only their number. -/
def name (n : Nat) : String :=
  match named.lookup n with
  | some s => s
  | none =>
    if n = 34 then "RTMIN"
    else if 34 < n ∧ n ≤ 49 then s!"RTMIN+{n - 34}"
    else if 49 < n ∧ n < 64 then s!"RTMAX-{64 - n}"
    else if n = 64 then "RTMAX"
    else toString n

/-- The signal that octets give by its number or, in any case, by its name; the numbers of names start at `lowest`. -/
def read? (lowest : Nat) (os : Octets) : Option Nat :=
  match toNat? os with
  | some n => if n < count then some n else none
  | none => (List.range count).find? fun n => lowest ≤ n ∧ (name n).toList = os.map Char.toUpper

/-- The signal for being interrupted. -/
def interrupt : Nat := 2

/-- The signal for leaving with a trace. -/
def quit : Nat := 3

/-- The signal for a fault in arithmetic. -/
def arithmetic : Nat := 8

/-- The signal for being ended at once. -/
def kill : Nat := 9

/-- The signal for writing where nobody reads. -/
def pipe : Nat := 13

/-- The signal for being asked to end. -/
def terminate : Nat := 15

/-- The signal that a child has ended. -/
def child : Nat := 17

/-- The signal for being stopped. -/
def stop : Nat := 19

/-- The signals that a program takes no notice of unless it asks for them. -/
def harmless : List Nat :=
  [0, 17, 18, 23, 28]

/-- The words for the end by a signal. -/
def words (n : Nat) : String :=
  let known : List (Nat × String) :=
    [(1, "Hangup"), (2, "Interrupt"), (3, "Quit"), (4, "Illegal instruction"), (5, "Trace/breakpoint trap"), (6, "Aborted"),
      (7, "Bus error"), (8, "Floating point exception"), (9, "Killed"), (10, "User defined signal 1"), (11, "Segmentation fault"),
      (12, "User defined signal 2"), (13, "Broken pipe"), (14, "Alarm clock"), (15, "Terminated"), (16, "Stack fault"),
      (24, "CPU time limit exceeded"), (25, "File size limit exceeded"), (26, "Virtual timer expired"),
      (27, "Profiling timer expired"), (29, "I/O possible"), (30, "Power failure"), (31, "Bad system call")]
  match known.lookup n with
  | some s => s
  | none => if 34 ≤ n ∧ n ≤ 64 then s!"Real-time signal {n - 34}" else s!"Unknown signal {n}"

end Signal

namespace Ending

/-- The code that a shell gives to an end. -/
def code : Status → Nat
  | .exited code => code
  | .killed signal => 128 + signal

/-- What a shell that waits says about an end, if anything. -/
def report? : Status → Option String
  | .exited _ => none
  | .killed signal => if signal = Signal.interrupt ∨ signal = Signal.pipe then none else some (Signal.words signal)

end Ending

end BootDisk.Shell
