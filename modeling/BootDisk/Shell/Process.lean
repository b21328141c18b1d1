import BootDisk.FileTree.Calls
import BootDisk.Shell.Script
import BootDisk.Shell.Signal

/-!
# A shell at work

What a script works on. The world is shared by all processes: the file tree, the files they have opened, what was written to the outside.
The rest is a shell's own: variables and functions, arguments, options, traps, and where its numbered files lead. A process that is started
takes over a copy of its own part, and leaves only the world behind.
-/

namespace BootDisk.Shell

/-! ## The parts of a shell -/

/-- The options of a shell. -/
inductive ShellOption where
  | errexit
  | noglob
  | ignoreeof
  | interactive
  | monitor
  | noexec
  | stdin
  | xtrace
  | verbose
  | vi
  | emacs
  | noclobber
  | allexport
  | notify
  | nounset
  | privileged
  | nolog
  | debug
  deriving DecidableEq, Repr, Inhabited

namespace ShellOption

/-- The options with their names and letters, in the order they are listed. -/
def all : List (ShellOption × String × Option Char) :=
  [(errexit, "errexit", some 'e'), (noglob, "noglob", some 'f'), (ignoreeof, "ignoreeof", some 'I'),
    (interactive, "interactive", some 'i'), (monitor, "monitor", some 'm'), (noexec, "noexec", some 'n'), (stdin, "stdin", some 's'),
    (xtrace, "xtrace", some 'x'), (verbose, "verbose", some 'v'), (vi, "vi", some 'V'), (emacs, "emacs", some 'E'),
    (noclobber, "noclobber", some 'C'), (allexport, "allexport", some 'a'), (notify, "notify", some 'b'),
    (nounset, "nounset", some 'u'), (privileged, "privileged", some 'p'), (nolog, "nolog", none), (debug, "debug", none)]

/-- The option of a letter. -/
def ofLetter? (c : Char) : Option ShellOption :=
  (all.find? fun o => o.2.2 == some c).map Prod.fst

/-- The option of a name. -/
def ofName? (os : Octets) : Option ShellOption :=
  (all.find? fun o => o.2.1.toList == os).map Prod.fst

end ShellOption

/-- A variable. One without a value has been spoken of, but not set. -/
structure Variable where
  name : Octets
  value : Option Octets
  isExported : Bool := false
  isReadOnly : Bool := false
  deriving Inhabited

/-- What is put back when a function or a command ends. -/
inductive Saved where
  | variable (name : Octets) (before : Option Variable)
  | options (before : List ShellOption)

/-- How far the arguments have been looked through for options: the argument to come, and the place in the one before it. -/
structure OptionPlace where
  argument : Nat := 1
  letter : Option Nat := none
  deriving Repr, Inhabited

/-- A program that has been looked for: the directory of the search path that it was found in, by its number. Since the working directory
has changed, what was found there may be another one. -/
structure Hashed where
  name : Octets
  index : Nat
  isStale : Bool := false
  deriving DecidableEq, Repr, Inhabited

/-- A command that was started in the background. One that has been waited for makes room when another process is started. -/
structure Job where
  process : Nat
  isWaitedFor : Bool := false
  deriving DecidableEq, Repr, Inhabited

/-- Where an open file leads. -/
inductive Target where
  | out
  | err
  | device
  | file (place : Place)
  | directory
  | pipe (number : Nat)
  deriving DecidableEq, Repr, Inhabited

/-- An open file, which may be reached by several numbers of several processes. -/
structure OpenFile where
  target : Target
  offset : Nat := 0
  appends : Bool := false
  isReadable : Bool := false
  isWritable : Bool := false
  deriving Repr, Inhabited

/-- What a shell has for itself. -/
structure Own where
  cwd : Place
  directory : Octets := []
  vars : List Variable := []
  functions : List (Octets × Command) := []
  aliases : List (Octets × Octets) := []
  hashed : List Hashed := []
  frames : List (List Saved) := []
  name : Octets := []
  args : List Octets := []
  optionPlace : OptionPlace := {}
  status : Nat := 0
  trapped : Option Nat := none
  substituted : Nat := 0
  options : List ShellOption := []
  traps : List (Nat × Octets) := []
  ignored : List Nat := []
  caught : List Nat := []
  isAlerted : Bool := false
  files : List (Nat × Nat) := []
  mask : Nat := 0o022
  line : Nat := 1
  readingLine : Nat := 1
  commandName : Option Octets := none
  loops : Nat := 0
  calls : Nat := 0
  process : Nat := 0
  rootProcess : Nat := 0
  parentProcess : Nat := 0
  lastBackground : Option Nat := none
  jobs : List Job := []
  documents : Array Word := #[]
  held : Octets := []
  isPrompting : Bool := false
  deriving Inhabited

/-- A command in the background that has not been run yet. -/
structure Deferred where
  own : Own
  command : Command
  deriving Inhabited

/-- What processes share. -/
structure World where
  tree : Tree
  out : ByteArray := .empty
  err : ByteArray := .empty
  opened : Array OpenFile := #[]
  pipes : Array ByteArray := #[]
  signals : List (Nat × Nat) := []
  deferred : List Deferred := []
  endings : List (Nat × Status) := []
  nextProcess : Nat := 0
  deriving Inhabited

/-- The state of a shell in the world. -/
structure Process extends World, Own
  deriving Inhabited

/-- Ways to leave the commands that are being run: the end of the shell, a fault that ends it unless it is expected, a signal, the end of
the program that took the shell's place, and the ways out of loops and functions. A function is left with a code or with the last one. -/
inductive Leave where
  | exit (code : Nat)
  | failed (code : Nat)
  | killed (signal : Nat)
  | replaced (status : Status)
  | loop (levels : Nat)
  | turn (levels : Nat)
  | function (code : Option Nat)
  deriving DecidableEq, Repr, Inhabited

/-- Whether a way out is one of a loop or a function. -/
def Leave.isInside : Leave → Bool
  | loop _ => true
  | turn _ => true
  | function _ => true
  | _ => false

/-- Something that a shell does. -/
abbrev Sh := EStateM Leave Process

/-- The number of the first process. -/
def firstProcess : Nat := 4242

namespace Process

/-- Whether an option is set. -/
def has (p : Process) (o : ShellOption) : Bool :=
  p.options.contains o

/-- What a variable is, if it has been spoken of. -/
def lookup? (p : Process) (name : Octets) : Option Variable :=
  p.vars.find? fun v => v.name == name

/-- The value of a variable. -/
def valueOf? (p : Process) (name : Octets) : Option Octets :=
  (p.lookup? name).bind Variable.value

/-- Whether a variable cannot be set. -/
def isReadOnly (p : Process) (name : Octets) : Bool :=
  (p.lookup? name).any Variable.isReadOnly

/-- Puts a variable in the place of the one of its name, or behind all others. -/
def putVariable (p : Process) (v : Variable) : Process :=
  if (p.lookup? v.name).isSome then { p with vars := p.vars.map fun w => if w.name == v.name then v else w }
  else { p with vars := p.vars ++ [v] }

/-- Takes a variable away. -/
def dropVariable (p : Process) (name : Octets) : Process :=
  { p with vars := p.vars.filter fun v => v.name != name }

/-- The row that a name stands in among so many: names are listed row by row. -/
def row (rows : Nat) (name : Octets) : Nat :=
  (name.foldl (fun n c => n + c.toNat) (16 * (name.headD ' ').toNat)) % rows

/-- What has names, row by row. -/
def inRows {α : Type} (rows : Nat) (name : α → Octets) (xs : List α) : List α :=
  (List.range rows).flatMap fun r => xs.filter fun x => row rows (name x) == r

/-- How many rows variables are listed in, and aliases. -/
def variableRows : Nat := 39

/-- What a program that is started gets to know of the variables, row by row. -/
def environment (p : Process) : List (Octets × Octets) :=
  let given := p.vars.filterMap fun v => if v.isExported then v.value.map fun value => (v.name, value) else none
  inRows variableRows Prod.fst given

/-- The octets that values are split at. -/
def splitters (p : Process) : Octets :=
  (p.valueOf? "IFS".toList).getD [' ', '\t', '\n']

/-- The action of a trap. -/
def trap? (p : Process) (signal : Nat) : Option Octets :=
  p.traps.lookup signal

/-- Whether there is a trap that does something, so that the shell has to stay. -/
def hasTraps (p : Process) : Bool :=
  p.traps.any fun t => t.2 ≠ []

/-- Whether signals of a number do nothing. -/
def ignores (p : Process) (signal : Nat) : Bool :=
  p.ignored.contains signal || p.trap? signal == some []

/-- The path of a place. -/
def pathOf (cwd : Place) : Octets :=
  ofText ("/" ++ "/".intercalate cwd.reverse)

/-- The open file of a number. -/
def openFile? (p : Process) (number : Nat) : Option (Nat × OpenFile) :=
  (p.files.lookup number).bind fun i => p.opened[i]?.map fun f => (i, f)

end Process

namespace Sh

/-! ## Messages -/

/-- A place in a file of so many bytes at which bytes are put, over those that are there. -/
def spliced (c : Content) (offset : Nat) (bytes : List UInt8) : Content :=
  if offset = c.length then c.append (.ofList bytes)
  else
    let gap := Content.zeros (offset - c.length)
    (((c.take offset).append gap).append (.ofList bytes)).append (c.drop (offset + bytes.length))

/-- Puts bytes where an open file leads. -/
def pour (index : Nat) (f : OpenFile) (bytes : List UInt8) : Sh Unit :=
  modify fun p =>
    match f.target with
    | .out => { p with out := p.out ++ ⟨bytes.toArray⟩ }
    | .err => { p with err := p.err ++ ⟨bytes.toArray⟩ }
    | .pipe k => { p with pipes := p.pipes.modify k fun b => b ++ ⟨bytes.toArray⟩ }
    | .file place =>
      match p.tree.node? place with
      | some (.file file) =>
        let offset := if f.appends then file.content.length else f.offset
        { p with
          tree := p.tree.put place (.file { file with content := spliced file.content offset bytes })
          opened := p.opened.set! index { f with offset := offset + bytes.length } }
      | _ => p
    | _ => p

/-- Writes octets to a file number; says whether it leads anywhere. -/
def write (number : Nat) (os : Octets) : Sh Bool := do
  match (← get).openFile? number with
  | some (index, f) =>
    if f.isWritable then
      pour index f (toBytes os)
      return true
    else return false
  | none => return false

/-- Writes a line to the error output. -/
def complain (os : Octets) : Sh Unit := do
  let _ ← write 2 (os ++ ['\n'])

/-- A message of the shell, with its name, the line it is at, and the command it is in. -/
def warn (text : Octets) : Sh Unit := do
  let p ← get
  let command := p.commandName.elim [] fun c => c ++ ofText ": "
  complain (p.name ++ ofText ": " ++ ofNat p.line ++ ofText ": " ++ command ++ text)

/-- A fault: its message, and the way out. -/
def fault {α : Type} (text : Octets) : Sh α := do
  warn text
  modify fun p => { p with status := 2 }
  throw (.failed 2)

/-- The fault of a text that is no number. -/
def illegalNumber {α : Type} (os : Octets) : Sh α :=
  fault (ofText "Illegal number: " ++ os)

/-- The whole number that an argument gives. -/
def integer (os : Octets) : Sh Int := do
  match Number.whole? (some 10) os with
  | some n => return n
  | none => illegalNumber os

/-- The count that an argument gives. -/
def number (os : Octets) : Sh Nat := do
  match Number.count? os with
  | some n => return n
  | none => illegalNumber os

/-! ## Output of commands of the shell -/

/-- Holds octets back until the command of the shell is done. -/
def say (os : Octets) : Sh Unit :=
  modify fun p => { p with held := p.held ++ os }

/-- Holds a line back until the command of the shell is done. -/
def sayLine (os : Octets) : Sh Unit :=
  say (os ++ ['\n'])

/-- Writes what is held back; says whether that could be done. -/
def flush : Sh Bool := do
  let os := (← get).held
  if os = [] then return true
  modify fun p => { p with held := [] }
  write 1 os

/-! ## Input -/

/-- All that is left to be read of an open file. -/
def rest (p : Process) (f : OpenFile) : List UInt8 :=
  match f.target with
  | .file place =>
    match p.tree.node? place with
    | some (.file file) => (file.content.drop f.offset).toList
    | _ => []
  | .pipe k => ((p.pipes[k]?.getD .empty).toList).drop f.offset
  | _ => []

/-- Goes on in an open file. -/
def advance (index : Nat) (f : OpenFile) (n : Nat) : Sh Unit :=
  modify fun p => { p with opened := p.opened.set! index { f with offset := f.offset + n } }

/-- Reads all that is left behind a file number; none if the number leads nowhere that could be read. -/
def readAll (number : Nat) : Sh (Option (List UInt8)) := do
  let p ← get
  match p.openFile? number with
  | some (index, f) =>
    if f.isReadable then
      let bytes := rest p f
      advance index f bytes.length
      return some bytes
    else return none
  | none => return none

/-! ## Files -/

/-- Tries a call on the file tree. -/
def files {α : Type} (call : Place → FileCall α) : Sh (Except IoError α) := fun p =>
  match call p.cwd p.tree with
  | .ok v t => .ok (.ok v) { p with tree := t }
  | .error e t => .ok (.error e) { p with tree := t }

/-- Opens a file for the use of processes. -/
def openAs (f : OpenFile) : Sh Nat := fun p =>
  .ok p.opened.size { p with opened := p.opened.push f }

/-- Has a file number lead to an open file. -/
def lead (number index : Nat) : Sh Unit :=
  modify fun p => { p with files := (number, index) :: p.files.filter fun e => e.1 != number }

/-- Has a file number lead nowhere. -/
def unlead (number : Nat) : Sh Unit :=
  modify fun p => { p with files := p.files.filter fun e => e.1 != number }

/-- Makes a pipe, and opens both ends of it: the one to read from and the one to write to. -/
def openPipe : Sh (Nat × Nat) := do
  let k := (← get).pipes.size
  modify fun p => { p with pipes := p.pipes.push .empty }
  let source ← openAs { target := .pipe k, isReadable := true }
  let sink ← openAs { target := .pipe k, isWritable := true }
  return (source, sink)

/-! ## Variables -/

/-- What follows from the new value of a variable: the search for options starts anew, or what is known of where programs are is
forgotten. -/
def noteValue (name value : Octets) : Sh Unit := do
  if name = "OPTIND".toList then
    let n ← number value
    modify fun p => { p with optionPlace := { argument := if n = 0 then 1 else n } }
  else if name = "PATH".toList then modify fun p => { p with hashed := [] }

/-- Refuses to change a variable that cannot be set. -/
def checkWritable (name : Octets) : Sh Unit := do
  if (← get).isReadOnly name then fault (name ++ ofText ": is read only")

/-- Refuses what is no name. -/
def checkName (name : Octets) : Sh Unit := do
  if !isName name then fault (name ++ ofText ": bad variable name")

/-- Sets a variable whose name is one. -/
def setVariable (name value : Octets) (exported : Bool) : Sh Unit := do
  checkWritable name
  noteValue name value
  modify fun p =>
    let before := p.lookup? name
    p.putVariable
      { name := name
        value := some value
        isExported := exported || p.has .allexport || before.any Variable.isExported
        isReadOnly := before.any Variable.isReadOnly }

/-- Sets a variable, if its name is one. -/
def assign (name value : Octets) : Sh Unit := do
  checkName name
  setVariable name value false

/-- Takes the value of a variable away, and what else is known of it. -/
def unsetVariable (name : Octets) : Sh Unit := do
  checkName name
  checkWritable name
  if ((← get).lookup? name).isSome then noteValue name []
  modify fun p => p.dropVariable name

/-! ## Frames -/

/-- Remembers what a variable is until the frame at hand ends. -/
def save (s : Saved) : Sh Unit :=
  modify fun p =>
    match p.frames with
    | f :: fs => { p with frames := (s :: f) :: fs }
    | [] => p

/-- Remembers a variable, and sets it for as long as the frame lasts. -/
def setLocally (name value : Octets) (exported : Bool) : Sh Unit := do
  save (.variable name ((← get).lookup? name))
  setVariable name value exported

/-- Puts back what was remembered. -/
def putBack : Saved → Sh Unit
  | .options before => modify fun p => { p with options := before }
  | .variable name none => do
    if ((← get).lookup? name).isSome then noteValue name []
    modify fun p => p.dropVariable name
  | .variable name (some v) => do
    noteValue name (v.value.getD [])
    modify fun p => p.putVariable v

/-- Ends the innermost frame. -/
def endFrame : Sh Unit := do
  match (← get).frames with
  | f :: fs =>
    modify fun p => { p with frames := fs }
    f.forM putBack
  | [] => pure ()

/-- Ends so many frames. -/
def endFrames : Nat → Sh Unit
  | 0 => pure ()
  | n + 1 => do
    endFrame
    endFrames n

/-- Runs something in a frame of its own. The frame ends with it and so do those that were left behind; a way out of the shell leaves all
frames behind, for the last trap to see. -/
def inFrame {α : Type} (x : Sh α) : Sh α := fun p =>
  let depth := p.frames.length
  match x { p with frames := [] :: p.frames } with
  | .ok v q =>
    match endFrames (q.frames.length - depth) q with
    | .ok () q => .ok v q
    | .error e q => .error e q
  | .error e q =>
    if e.isInside then
      match endFrames (q.frames.length - depth) q with
      | .ok () q => .error e q
      | .error _ q => .error e q
    else .error e q

/-! ## Control -/

/-- Sets the code that the last command ended with. -/
def setStatus (code : Nat) : Sh Unit :=
  modify fun p => { p with status := code }

/-- Runs something and changes the shell's own part afterwards, knowing what it was before, however it is left. -/
def restoring {α : Type} (restore : Own → Own → Own) (x : Sh α) : Sh α := fun p =>
  let before := p.toOwn
  match x p with
  | .ok v q => .ok v { q with toOwn := restore before q.toOwn }
  | .error e q => .error e { q with toOwn := restore before q.toOwn }

end Sh

/-- The words for an error, as the host's programs report it. -/
def errorText : IoError → String
  | .os e => e.words
  | e => e.message

end BootDisk.Shell
