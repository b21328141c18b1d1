import BootDisk.Path
import BootDisk.Profile

/-!
# The command line

One command word among options in any order. An option that takes a value takes the next argument whatever it looks like, and of an
option that is given several times the last one counts. The first faulty argument is the one that is reported; whether there is
exactly one command word is looked at last.
-/

namespace BootDisk

/-- What a run is asked to do. -/
inductive Task where
  | stage
  | image
  | all
  | qemu
  | check
  deriving DecidableEq, Repr, Inhabited

/-- The task that a command word names. -/
def Task.ofWord? (word : String) : Option Task :=
  if word = "stage" then some .stage
  else if word = "image" then some .image
  else if word = "all" then some .all
  else if word = "qemu" ∨ word = "run" then some .qemu
  else if word = "check" then some .check
  else none

/-- What the options of a run say. -/
structure Settings where
  profile : Profile := .release
  config : Option Path := none
  verbose : Bool := false
  headless : Bool := false
  serialLog : Option Path := none
  deriving DecidableEq, Repr, Inhabited

/-- A run: its task and its settings. -/
structure Options where
  task : Task
  settings : Settings
  deriving DecidableEq, Repr, Inhabited

/-- How to call the program. -/
def usage : String :=
  "Usage:\n  kernel-image-builder [--config <path>] [--release|--debug] [-v] <command>\n\n" ++
  "Commands:\n" ++
  "  stage   build user-space binaries and install them into the runtime tree\n" ++
  "  image   rebuild the kernel and write the boot image onto the disk container\n" ++
  "  all     stage, then image\n" ++
  "  qemu    boot the disk container (--headless for serial only, --serial-log <file>)\n" ++
  "  check   verify host tools"

/-- What an option takes as its value, as far as a message says. -/
inductive ValueKind where
  | value
  | path
  deriving DecidableEq, Repr

/-- Why arguments are no run. -/
inductive OptionError where
  | usage
  | unknownOption (argument : String)
  | missingValue (option : String) (kind : ValueKind)
  | unsupportedProfile (word : String)
  deriving DecidableEq, Repr

/-- The words for an error. -/
def OptionError.message : OptionError → String
  | usage => BootDisk.usage
  | unknownOption a => s!"unknown option '{a}'\n\n" ++ BootDisk.usage
  | missingValue option .value => s!"{option} requires a value"
  | missingValue option .path => s!"{option} requires a path"
  | unsupportedProfile word => s!"unsupported build mode '{word}'; expected 'release' or 'debug'"

/-- The profile that a word stands for, or why it stands for none. -/
def Profile.parse (word : String) : Except OptionError Profile :=
  match Profile.ofWord? word with
  | some p => .ok p
  | none => .error (.unsupportedProfile word)

namespace Options

/-- Reads arguments from left to right, over the settings so far, and gathers the words that are no options. -/
def scan : Settings → List String → List String → Except OptionError (Settings × List String)
  | s, words, [] => .ok (s, words)
  | s, words, a :: rest =>
    if a = "--release" ∨ a = "--debug" then
      match Profile.parse a with
      | .error e => .error e
      | .ok p => scan { s with profile := p } words rest
    else if a = "--mode" then
      match rest with
      | [] => .error (.missingValue a .value)
      | v :: rest =>
        match Profile.parse v with
        | .error e => .error e
        | .ok p => scan { s with profile := p } words rest
    else if a = "--config" then
      match rest with
      | [] => .error (.missingValue a .path)
      | v :: rest => scan { s with config := some ⟨v⟩ } words rest
    else if a = "-v" ∨ a = "--verbose" then scan { s with verbose := true } words rest
    else if a = "--headless" then scan { s with headless := true } words rest
    else if a = "--serial-log" then
      match rest with
      | [] => .error (.missingValue a .path)
      | v :: rest => scan { s with serialLog := some ⟨v⟩ } words rest
    else if a = "-h" ∨ a = "--help" then .error .usage
    else if a.toList.head? = some '-' then .error (.unknownOption a)
    else scan s (words ++ [a]) rest

/-- The run that arguments ask for. -/
def parse (args : List String) : Except OptionError Options :=
  match scan {} [] args with
  | .error e => .error e
  | .ok (s, words) =>
    match words with
    | [word] =>
      match Task.ofWord? word with
      | some task => .ok ⟨task, s⟩
      | none => .error .usage
    | _ => .error .usage

end Options

end BootDisk
