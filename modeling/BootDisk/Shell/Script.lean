import BootDisk.Shell.Octets

/-!
# Shell scripts

What a script is made of: words with their quoted and expanded parts, redirections, simple and compound commands. The lines of a document
that is given in the script are kept beside it; a redirection knows them by a number.
-/

namespace BootDisk.Shell

/-- Which end of a value is trimmed, and whether as little as possible or as much. -/
structure Trim where
  atStart : Bool
  longest : Bool
  deriving DecidableEq, Repr, Inhabited

/-- How a file is opened by a redirection. Writing empties a file; unless it is forced, the shell may be told to spare those there are. -/
inductive Opening where
  | read
  | write (forced : Bool)
  | append
  | both
  deriving DecidableEq, Repr, Inhabited

mutual

/-- A part of a word. Text that is kept stands for itself whatever it is; quotes begin and end what is not split. -/
inductive Part where
  | text (os : Octets) (kept : Bool)
  | quote
  | parameter (name : Octets) (use : Use)
  | output (command : Option Command)
  | sum (parts : List Part)

/-- What is done with the value of a parameter. With `orEmpty` an empty value counts as none. A use that is not known is a fault when
it comes to be expanded, and not before. -/
inductive Use where
  | value (orEmpty : Bool)
  | length
  | unknown (word : List Part)
  | otherwise (word : List Part) (orEmpty : Bool)
  | assign (word : List Part) (orEmpty : Bool)
  | instead (word : List Part) (orEmpty : Bool)
  | demand (word : List Part) (orEmpty : Bool)
  | trim (how : Trim) (word : List Part)

/-- A redirection of a file number: to a file, to what another number leads to, or from a document of the script. -/
inductive Redirection where
  | file (number : Nat) (opening : Opening) (name : List Part)
  | duplicate (number : Nat) (source : List Part)
  | document (number : Nat) (expanded : Bool) (id : Nat)

/-- A command; the words of a simple command are expanded when it is run. -/
inductive Command where
  | simple (line : Nat) (settings : List (Octets × List Part)) (words : List (List Part)) (redirections : List Redirection)
  | pipeline (commands : List Command)
  | background (command : Command)
  | subshell (line : Nat) (command : Command) (redirections : List Redirection)
  | redirected (line : Nat) (command : Command) (redirections : List Redirection)
  | negation (command : Command)
  | both (first second : Command)
  | either (first second : Command)
  | sequence (commands : List Command)
  | conditional (condition body : Command) (otherwise : Option Command)
  | loop (stopWhen : Bool) (condition body : Command)
  | each (line : Nat) (name : Octets) (words : List (List Part)) (body : Command)
  | choice (line : Nat) (word : List Part) (arms : List (List (List Part) × Option Command))
  | define (name : Octets) (body : Command)

end

/-- A word is the parts it is written in. -/
abbrev Word := List Part

instance : Inhabited Part := ⟨.quote⟩

instance : Inhabited Command := ⟨.sequence []⟩

/-- The commands of the shell that no function can stand in for. -/
def specialNames : List String :=
  [".", ":", "break", "continue", "eval", "exec", "exit", "export", "local", "readonly", "return", "set", "shift", "times", "trap", "unset"]

/-- The commands of the shell that a function can stand in for. -/
def regularNames : List String :=
  ["[", "alias", "bg", "cd", "command", "echo", "false", "fg", "getopts", "hash", "jobs", "kill", "printf", "pwd", "read", "test", "true",
    "type", "ulimit", "umask", "unalias", "wait"]

/-- Whether a name is one of a special command of the shell. -/
def isSpecial (name : Octets) : Bool :=
  specialNames.any fun s => s.toList == name

/-- Whether a name is one of a command of the shell. -/
def isBuiltin (name : Octets) : Bool :=
  isSpecial name || regularNames.any fun s => s.toList == name

namespace Word

/-- The octets of a word without its quotes, as far as it is plain. -/
def flat (w : Word) : Octets :=
  w.flatMap fun
    | .text os _ => os
    | _ => []

/-- The octets of a word if it is one piece of text without a quote. -/
def plain? : Word → Option Octets
  | [] => some []
  | [.text os false] => some os
  | _ => none

/-- A word as the setting of a variable, if it is written as one. -/
def setting? : Word → Option (Octets × Word)
  | .text os false :: rest =>
    let (name, after) := splitName os
    match after with
    | '=' :: value => if name = [] then none else some (name, if value = [] then rest else .text value false :: rest)
    | _ => none
  | _ => none

/-- All arguments, each of them apart. -/
def arguments : Word :=
  [.quote, .parameter ['@'] (.value false), .quote]

end Word

end BootDisk.Shell
