import BootDisk.Shell.Script

/-!
# A place in a script that is read

The tokens of a script, the faults that reading it can end in, and the place that has been reached: the text that is left, the line it is
on, a token that was put back, the documents that are still to be read, and the aliases.
-/

namespace BootDisk.Shell

/-- What a script is cut into. A word or the sign of a redirection is found with the cursor. -/
inductive Token where
  | finish
  | newline
  | redirection
  | word
  | sign (text : String)
  | keyword (text : String)
  deriving DecidableEq, Repr, Inhabited

namespace Token

/-- The name of a token in messages. -/
def name : Token → String
  | finish => "end of file"
  | newline => "newline"
  | redirection => "redirection"
  | word => "word"
  | sign text => "\"" ++ text ++ "\""
  | keyword text => "\"" ++ text ++ "\""

/-- The words that mean something where a command can begin. -/
def keywords : List String :=
  ["!", "case", "do", "done", "elif", "else", "esac", "fi", "for", "if", "in", "then", "until", "while", "\x7b", "\x7d"]

/-- The keyword that opens a group. -/
def groupOpen : Token :=
  keyword "\x7b"

/-- The keyword that closes a group. -/
def groupClose : Token :=
  keyword "\x7d"

/-- Whether a list of commands ends at a token. -/
def closes : Token → Bool
  | finish => true
  | sign text => text == ")" || text == ";;"
  | keyword text => ["do", "done", "elif", "else", "esac", "fi", "then", "\x7d"].contains text
  | _ => false

end Token

/-- Why a script cannot be read. -/
inductive SyntaxCause where
  | unexpected (found : Token) (expected : Option Token)
  | openQuote
  | openBackquote
  | openBrace
  | openSum
  | loopName
  | functionName
  deriving DecidableEq, Repr, Inhabited

/-- The words for a fault. -/
def SyntaxCause.message : SyntaxCause → String
  | unexpected found none => s!"{found.name} unexpected"
  | unexpected found (some expected) => s!"{found.name} unexpected (expecting {expected.name})"
  | openQuote => "Unterminated quoted string"
  | openBackquote => "EOF in backquote substitution"
  | openBrace => "Missing '\x7d'"
  | openSum => "Missing '))'"
  | loopName => "Bad for loop variable"
  | functionName => "Bad function name"

/-- A fault and the line it was noticed on. -/
structure SyntaxFault where
  line : Nat
  cause : SyntaxCause
  deriving DecidableEq, Repr, Inhabited

/-- The sign of a redirection: what it does with which file number. -/
inductive RedirectionSign where
  | file (number : Nat) (opening : Opening)
  | duplicate (number : Nat)
  | document (number : Nat) (stripTabs : Bool)
  deriving DecidableEq, Repr, Inhabited

/-- A document whose lines come after the line at hand. -/
structure PendingDocument where
  id : Nat
  mark : Octets
  stripTabs : Bool
  expanded : Bool
  deriving Repr, Inhabited

/-- An alias whose value has been put in front of the text: how long the text behind it is, and whether the value ends in a blank. -/
structure AliasUse where
  name : Octets
  behind : Nat
  blankAtEnd : Bool
  deriving Repr, Inhabited

/-- A place in a script. -/
structure Cursor where
  rest : Octets
  line : Nat := 1
  last : Token := .newline
  isPutBack : Bool := false
  word : Word := []
  isQuoted : Bool := false
  sign : RedirectionSign := .duplicate 0
  pending : List PendingDocument := []
  documents : Array Word := #[]
  aliases : List (Octets × Octets) := []
  uses : List AliasUse := []
  deriving Inhabited

/-- A rule of the grammar. -/
abbrev Reader := EStateM SyntaxFault Cursor

/-- What is looked for in the token to come: aliases and keywords, a token behind any line ends, the mark of a document. -/
structure Want where
  aliases : Bool := false
  keywords : Bool := false
  pastLines : Bool := false
  mark : Bool := false

namespace Reader

/-- Gives up for a cause. -/
def fault {α : Type} (cause : SyntaxCause) : Reader α := do
  throw ⟨(← get).line, cause⟩

/-- Gives up at the last token. -/
def unexpected {α : Type} (expected : Option Token) : Reader α := do
  fault (.unexpected (← get).last expected)

/-- Goes on at another rest of the text. -/
def goOn (rest : Octets) : Reader Unit :=
  modify fun c => { c with rest := rest }

/-- Counts a line. -/
def countLine : Reader Unit :=
  modify fun c => { c with line := c.line + 1 }

/-- Takes the next octet. -/
def next : Reader (Option Char) := do
  match (← get).rest with
  | [] => return none
  | c :: rest =>
    goOn rest
    return some c

/-- The text behind line ends that are joined by a backslash, and how many there are. -/
def behindJoins : Octets → Nat → Octets × Nat
  | '\\' :: '\n' :: os, n => behindJoins os (n + 1)
  | os, n => (os, n)

/-- Takes the next octet behind joined line ends. -/
def nextJoined : Reader (Option Char) := do
  modify fun c =>
    let (rest, joins) := behindJoins c.rest 0
    { c with rest := rest, line := c.line + joins }
  next

/-- Puts an octet back. -/
def giveBack : Option Char → Reader Unit
  | some c => modify fun cursor => { cursor with rest := c :: cursor.rest }
  | none => pure ()

/-- Takes octets as long as they are of a kind, at most so many; gives those before, the last one first, with them, and the octet behind,
which is taken too. -/
def takeKind (kind : Char → Bool) : Nat → Octets → Reader (Octets × Option Char)
  | 0, taken => return (taken.reverse, none)
  | n + 1, taken => do
    match ← nextJoined with
    | some c => if kind c then takeKind kind n (c :: taken) else return (taken.reverse, some c)
    | none => return (taken.reverse, none)

/-- Remembers a token as the last one. -/
def found (t : Token) : Reader Token := do
  modify fun c => { c with last := t }
  return t

/-- Has the last token come again. -/
def putBack : Reader Unit :=
  modify fun c => { c with isPutBack := true }

/-- Takes the token that was put back. -/
def takeBack : Reader Token := do
  modify fun c => { c with isPutBack := false }
  return (← get).last

/-- The text behind blanks, joined lines and a comment, and the number of its line. -/
def behindBlanks : Octets → Nat → Octets × Nat
  | ' ' :: os, n => behindBlanks os n
  | '\t' :: os, n => behindBlanks os n
  | '\\' :: '\n' :: os, n => behindBlanks os (n + 1)
  | '#' :: os, n => (os.dropWhile (· ≠ '\n'), n)
  | os, n => (os, n)

/-- Passes over blanks and a comment. -/
def skipBlanks : Reader Unit :=
  modify fun c =>
    let (rest, line) := behindBlanks c.rest c.line
    { c with rest := rest, line := line }

/-- Whether the value of an alias is being read. -/
def isInUse (c : Cursor) (name : Octets) : Bool :=
  c.uses.any fun u => u.name == name && (u.behind < c.rest.length || (u.behind == c.rest.length && !u.blankAtEnd))

/-- Drops the aliases whose values have been read; says whether one of them ended in a blank, so that the word behind it may be an alias
too. -/
def settleAliases : Reader Bool := do
  let c ← get
  let settled := c.uses.filter fun u => c.rest.length < u.behind || (c.rest.length == u.behind && u.blankAtEnd)
  set { c with uses := c.uses.filter fun u => !(c.rest.length < u.behind || (c.rest.length == u.behind && u.blankAtEnd)) }
  return settled.any AliasUse.blankAtEnd

/-- Puts the value of an alias in front of the text. -/
def putAlias (name value : Octets) : Reader Unit :=
  modify fun c =>
    { c with
      rest := value ++ c.rest
      uses := ⟨name, c.rest.length, value.getLast?.any fun e => e == ' ' || e == '\t'⟩ :: c.uses }

end Reader

end BootDisk.Shell
