/-!
# What the operating system and the file calls refuse

The errors that a call on the file system or the start of a program can end in, each with the words it is reported by.
-/

namespace BootDisk

/-- The errors of the operating system. -/
inductive OsError where
  | noEntry
  | badExecutable
  | denied
  | alreadyExists
  | notDirectory
  | isDirectory
  | invalidArgument
  | nameTooLong
  | tooManyLinks
  deriving DecidableEq, Repr

namespace OsError

/-- The number of the error. -/
def code : OsError → Nat
  | noEntry => 2
  | badExecutable => 8
  | denied => 13
  | alreadyExists => 17
  | notDirectory => 20
  | isDirectory => 21
  | invalidArgument => 22
  | nameTooLong => 36
  | tooManyLinks => 40

/-- The system's words for the error. -/
def words : OsError → String
  | noEntry => "No such file or directory"
  | badExecutable => "Exec format error"
  | denied => "Permission denied"
  | alreadyExists => "File exists"
  | notDirectory => "Not a directory"
  | isDirectory => "Is a directory"
  | invalidArgument => "Invalid argument"
  | nameTooLong => "File name too long"
  | tooManyLinks => "Too many levels of symbolic links"

end OsError

/-- Why a call on a file or a program failed: the system refused, or the call was refused before it reached the system. -/
inductive IoError where
  | os (error : OsError)
  | nulInFileName
  | nulInArgument
  | notUtf8
  | lengthTooLarge
  | sourceNotRegular
  | treeNotCreated
  deriving DecidableEq, Repr

/-- The words of an error. -/
def IoError.message : IoError → String
  | os e => s!"{e.words} (os error {e.code})"
  | nulInFileName => "file name contained an unexpected NUL byte"
  | nulInArgument => "nul byte found in provided data"
  | notUtf8 => "stream did not contain valid UTF-8"
  | lengthTooLarge => "number too large to fit in target type"
  | sourceNotRegular => "the source path is neither a regular file nor a symlink to a regular file"
  | treeNotCreated => "failed to create whole tree"

end BootDisk
