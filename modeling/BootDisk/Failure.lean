import BootDisk.Command
import BootDisk.Config.Decode
import BootDisk.IoError
import BootDisk.Options

/-!
# Failures

A failure is its cause and what was being done when it came up, the outermost activity first. Causes and activities are kept as what
they are; their words are found here, and so are the two ways to show a whole failure: on one line, and as a report.
-/

namespace BootDisk

/-- What was being done when something failed. -/
inductive Activity where
  | readingConfig (path : Path)
  | parsingConfig (path : Path)
  | findingDirectory
  | readingSources (dir : Path)
  | creatingInstallDir (dir : Path)
  | creatingPlaceholder (path : Path)
  | removingLink (path : Path)
  | staging (name : String)
  | copying (source target : Path)
  | readingPermissions (path : Path)
  | markingExecutable (path : Path)
  | openingArtifact (path : Path)
  | creatingStateDir (dir : Path)
  | writingManifest (path : Path)
  | creatingContainer (path : Path)
  | sizingContainer (path : Path) (size : Nat)
  | inspectingContainer (path : Path)
  | inspectingNewContainer (path : Path)
  | readingBlob (path : Path)
  | openingContainer (path : Path)
  | flushingContainer (path : Path)
  | invalidatingKernel
  | openingEntrySource (path : Path)
  | spawning (commandLine : String)
  deriving DecidableEq, Repr

/-- The words for an activity. -/
def Activity.message : Activity → String
  | readingConfig p => s!"reading builder config '{p.text}'"
  | parsingConfig p => s!"parsing builder config '{p.text}'"
  | findingDirectory => "resolving current directory"
  | readingSources d => s!"reading binary sources '{d.text}'"
  | creatingInstallDir d => s!"creating install directory '{d.text}'"
  | creatingPlaceholder p => s!"creating install placeholder '{p.text}'"
  | removingLink p => s!"removing symlink at install path '{p.text}'"
  | staging name => s!"staging '{name}'"
  | copying s t => s!"copying {s.text} to {t.text}"
  | readingPermissions p => s!"reading permissions of '{p.text}'"
  | markingExecutable p => s!"marking '{p.text}' executable"
  | openingArtifact p => s!"Failed to open {p.text}"
  | creatingStateDir d => s!"creating builder state dir '{d.text}'"
  | writingManifest p => s!"writing stage manifest '{p.text}'"
  | creatingContainer p => s!"creating disk container '{p.text}'"
  | sizingContainer p size => s!"sizing disk container '{p.text}' to {size} bytes"
  | inspectingContainer p => s!"inspecting disk container '{p.text}'"
  | inspectingNewContainer p => s!"inspecting new disk container '{p.text}'"
  | readingBlob p => s!"reading boot blob '{p.text}'"
  | openingContainer p => s!"opening disk container '{p.text}'"
  | flushingContainer p => s!"flushing disk container '{p.text}'"
  | invalidatingKernel => "invalidating cached kernel build"
  | openingEntrySource p => s!"opening '{p.text}' to invalidate kernel build"
  | spawning line => s!"failed to spawn '{line}'"

/-- Why a run failed. -/
inductive Cause where
  | io (error : IoError)
  | config (error : ConfigError)
  | option (error : OptionError)
  | repeatedProgram (name : String) (first second : Path)
  | artifactMissing (name : String) (path : Path)
  | bootImageMissing (path : Path)
  | commandFailed (note : Option String) (commandLine : String) (status : Status) (errors : Option String)
  | toolsMissing (tools : List (String × String))
  | containerNotRegular (path : Path)
  | containerSized (path : Path) (length expected : Nat)
  | blobTooLong (blob : Path) (length : Nat) (container : Path) (room : Nat)
  | imageMissing (path : Path)
  | reported (text : String)
  deriving DecidableEq, Repr

/-- The line for a tool that is missing. -/
def missingToolLine (tool : String × String) : String :=
  s!"  {tool.1} (install: {tool.2})"

/-- The words for a cause. -/
def Cause.message : Cause → String
  | io e => e.message
  | config e => e.message
  | option e => e.message
  | repeatedProgram name a b => s!"binary '{name}' is defined twice: {a.text} and {b.text}"
  | artifactMissing name p => s!"cargo reported success but '{name}' was not produced at {p.text}"
  | bootImageMissing p => s!"cargo bootimage reported success but no boot image at {p.text}"
  | commandFailed note line status errors =>
    let head := note.getD "command failed"
    s!"{head}: '{line}' exited with {status.message}" ++
      match errors with
      | some text => "\n" ++ text
      | none => ""
  | toolsMissing tools => "Missing required host tools:\n" ++ "\n".intercalate (tools.map missingToolLine)
  | containerNotRegular p => s!"disk container path '{p.text}' exists but is not a regular file"
  | containerSized p length expected =>
    s!"disk container '{p.text}' was created with {length} bytes, expected {expected}"
  | blobTooLong blob length container room =>
    s!"boot blob '{blob.text}' ({length} bytes) does not fit in disk container '{container.text}' ({room} bytes)"
  | imageMissing p => s!"disk image not found at {p.text}. Run 'kernel-image-builder image' first."
  | reported text => text

/-- A failure: what was being done, outermost first, and why it failed. -/
structure Failure where
  activities : List Activity := []
  cause : Cause
  deriving DecidableEq, Repr

namespace Failure

/-- The failure as seen from an activity around it. -/
def during (f : Failure) (a : Activity) : Failure :=
  { f with activities := a :: f.activities }

/-- A failure with no more than its cause. -/
def ofIo (e : IoError) : Failure :=
  { cause := .io e }

/-- The texts of a failure, outermost first. -/
def texts (f : Failure) : List String :=
  f.activities.map Activity.message ++ [f.cause.message]

/-- A failure on one line. -/
def chain (f : Failure) : String :=
  ": ".intercalate f.texts

/-- A text with every line but the first moved in. -/
def hanging (indent : String) (s : String) : String :=
  String.ofList (s.toList.flatMap fun c => if c = '\n' then '\n' :: indent.toList else [c])

/-- A cause among several, with its number. -/
def numbered (n : Nat) (s : String) : String :=
  let number := toString n
  String.ofList (List.replicate (5 - number.length) ' ') ++ number ++ ": " ++ hanging "       " s

/-- A failure as a report: the outermost text, then what caused it, numbered if there is more than one cause. -/
def report (f : Failure) : String :=
  match f.texts with
  | [] => ""
  | [text] => text
  | [text, cause] => text ++ "\n\nCaused by:\n    " ++ hanging "    " cause
  | text :: causes => text ++ "\n\nCaused by:" ++ String.join (causes.mapIdx fun i s => "\n" ++ numbered i s)

end Failure

end BootDisk
