import BootDisk.Shell.Builtin.Echo
import BootDisk.Shell.Builtin.Test
import BootDisk.Shell.Utility.Filing
import BootDisk.Shell.Utility.Showing

/-!
# The programs at hand

The small programs that scripts call, each by its name. Besides those that show and change files there are programs that list names, take
paths apart, and do as programs what the shell does itself.
-/

namespace BootDisk.Shell.Utility

/-! ## Names -/

/-- The names in a directory, in order. Those that start with a dot are left out, unless they are asked for. -/
def listing (p : Process) (g : Given) (place : Place) : List Octets :=
  let names := (p.tree.names place).map ofText
  let names := if g.has 'a' then ['.'] :: ['.', '.'] :: names else if g.has 'A' then names else names.filter fun n => n.head? ≠ some '.'
  names.mergeSort precedes

/-- Names, one on a line. -/
def inLines (names : List Octets) : Octets :=
  names.flatMap fun n => n ++ ['\n']

/-- Shows the names of files, and of what is in directories, which have headings if there is more than one operand. On demand a directory
is shown like a file. -/
def ls (args : List Octets) : Sh Nat := do
  match (Known.mk ['1', 'a', 'A', 'd'] [] [("all", 'a'), ("almost-all", 'A'), ("directory", 'd')]).sort args with
  | .error e => misused "ls" e.message 2
  | .ok g =>
    let operands := if g.operands = [] then [['.']] else g.operands
    let p ← get
    let found := operands.map fun a => (a, p.tree.entry p.cwd (asPath a) .through)
    for (a, r) in found do
      match r with
      | .ok _ => pure ()
      | .error e => Sh.complain (ofText "ls: cannot access " ++ quotedName a ++ ofText ": " ++ ofText (errorText e))
    let files := found.filterMap fun
      | (a, .ok (_, n)) => if n.isDirectory ∧ !g.has 'd' then none else some a
      | _ => none
    let directories := found.filterMap fun
      | (a, .ok (place, .directory)) => if g.has 'd' then none else some (a, place)
      | _ => none
    let heading := fun (a : Octets) => if operands.length = 1 then [] else a ++ [':', '\n']
    let parts := (directories.mergeSort fun d e => precedes d.1 e.1).map fun d => heading d.1 ++ inLines (listing p g d.2)
    Sh.say (['\n'].intercalate ((if files = [] then [] else [inLines (files.mergeSort precedes)]) ++ parts))
    return if found.any fun f => !f.2.toBool then 2 else 0

/-- Shows the last name of a path, without an ending if one is given. -/
def basename (args : List Octets) : Sh Nat := do
  match args with
  | [] => misused "basename" (ofText "missing operand") 1
  | _ :: _ :: a :: _ => misused "basename" (ofText "extra operand " ++ quotedName a) 1
  | path :: more =>
    let name := lastName path
    let ending := more.headD []
    let cut := ending ≠ [] ∧ ending ≠ name ∧ ending.isSuffixOf name
    Sh.say ((if cut then name.take (name.length - ending.length) else name) ++ ['\n'])
    return 0

/-- Shows the paths above paths. -/
def dirname (args : List Octets) : Sh Nat := do
  if args = [] then misused "dirname" (ofText "missing operand") 1
  else
    Sh.say (inLines (args.map above))
    return 0

/-! ## What the shell does itself -/

/-- Shows the arguments as they are. -/
def plainEcho (args : List Octets) : Sh Nat := do
  match args with
  | ['-', 'n'] :: rest => Sh.say (joined rest)
  | _ => Sh.say (joined args ++ ['\n'])
  return 0

/-! ## Programs by name -/

/-- The program of a name. -/
def find? (name : String) : Option (List Octets → Sh Nat) :=
  [("cat", cat), ("mkdir", mkdir), ("rm", rm), ("rmdir", rmdir), ("cp", cp), ("mv", mv), ("ln", ln), ("touch", touch),
    ("chmod", chmod), ("ls", ls), ("basename", basename), ("dirname", dirname), ("echo", plainEcho), ("printf", printf),
    ("test", test), ("[", bracketed), ("true", fun _ => return 0), ("false", fun _ => return 1), ("sleep", fun _ => return 0),
    ("sync", fun _ => return 0)].lookup name

/-- The names of the programs at hand, the shell and its companions included. -/
def names : List String :=
  ["sh", "dash", "env", "cat", "mkdir", "rm", "rmdir", "cp", "mv", "ln", "touch", "chmod", "ls", "basename", "dirname", "echo",
    "printf", "test", "[", "true", "false", "sleep", "sync"]

/-- Runs a program at hand, and writes what it has to say. -/
def run (program : String) (args : List Octets) : Sh Nat := do
  match find? program with
  | none => return 127
  | some act =>
    let code ← act args
    if ← Sh.flush then return code
    else
      Sh.complain (ofText (program ++ ": write error: Bad file descriptor"))
      return 1

end BootDisk.Shell.Utility
