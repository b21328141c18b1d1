import BootDisk.Shell.Reader.Words

/-!
# Reading commands

From the text of a script to its commands. Commands are read a line at a time, so that what one line does can change how the next is
read. The rules of the grammar refer to each other; they are written one level at a time, a level in terms of the level below it, so that
a text can be nested as deep as there are levels.
-/

namespace BootDisk.Shell

namespace Reader

/-! ## Tokens -/

/-- The next token as it is written. A word may be the mark of a document. -/
def rawToken (rules : Rules) (isMark : Bool) : Reader Token := do
  if (← get).isPutBack then takeBack
  else
    skipBlanks
    let c ← nextJoined
    let doubled (one : Char) : Reader Token := do
      let e ← nextJoined
      if e = some one then found (.sign (String.ofList [one, one]))
      else
        giveBack e
        found (.sign (String.singleton one))
    match c with
    | none => found .finish
    | some '\n' =>
      countLine
      found .newline
    | some '&' => doubled '&'
    | some '|' => doubled '|'
    | some ';' => doubled ';'
    | some '(' => found (.sign "(")
    | some ')' => found (.sign ")")
    | c => wordFrom rules isMark c

/-- The next token behind line ends, at most so many. Documents that are due begin at a line end. -/
def tokenPastLines (rules : Rules) : Nat → Reader Token
  | 0 => rawToken rules false
  | n + 1 => do
    match ← rawToken rules false with
    | .newline =>
      readDocuments rules
      tokenPastLines rules n
    | t => return t

/-- The next token, with keywords and aliases if they are wanted; at most so many aliases are followed. -/
def tokenWith (rules : Rules) (want : Want) : Nat → Reader Token
  | 0 => rawToken rules false
  | n + 1 => do
    let t ← if want.pastLines then tokenPastLines rules ((← get).rest.length + 1) else rawToken rules want.mark
    let blankAtEnd ← settleAliases
    let c ← get
    match t, c.word.plain?, c.isQuoted with
    | .word, some text, false =>
      let keyword := String.ofList text
      if want.keywords ∧ Token.keywords.contains keyword then found (.keyword keyword)
      else if want.aliases || blankAtEnd then
        match c.aliases.lookup text with
        | some value =>
          if isInUse c text then return t
          else
            putAlias text value
            tokenWith rules { want with aliases := true } n
        | none => return t
      else return t
    | t, _, _ => return t

/-- How many aliases are followed for one token. -/
def maxAliases : Nat := 1000

/-- The next token. -/
def token (rules : Rules) (want : Want) : Reader Token :=
  tokenWith rules want maxAliases

/-- What is wanted where a command can begin, on this line or a later one. -/
def Want.command : Want :=
  ⟨true, true, true, false⟩

/-- Takes the next token, which has to be a certain one. -/
def expect (rules : Rules) (want : Want) (t : Token) : Reader Unit := do
  if (← token rules want) ≠ t then unexpected (some t)

/-! ## Redirections -/

/-- A redirection, behind its sign. -/
def redirection (rules : Rules) : Reader Redirection := do
  let sign := (← get).sign
  let isMark :=
    match sign with
    | .document _ _ => true
    | _ => false
  if (← token rules { mark := isMark }) ≠ .word then unexpected none
  let c ← get
  match sign with
  | .file number opening => return .file number opening c.word
  | .duplicate number => return .duplicate number c.word
  | .document number stripTabs =>
    let id := c.documents.size
    let document : PendingDocument := ⟨id, c.word.flat, stripTabs, !c.isQuoted⟩
    modify fun c => { c with documents := c.documents.push [], pending := c.pending ++ [document] }
    return .document number (!c.isQuoted) id

/-- The redirections behind a compound command, at most so many. -/
def redirections (rules : Rules) : Nat → Reader (List Redirection)
  | 0 => return []
  | n + 1 => do
    match ← token rules { aliases := true, keywords := true } with
    | .redirection => return (← redirection rules) :: (← redirections rules n)
    | _ =>
      putBack
      return []

/-- The length of the text that is left, as a bound for what can be read of it. -/
def bound : Reader Nat := do
  return (← get).rest.length + 2

/-! ## Simple commands -/

/-- What a simple command is made of, as far as it has been read, the last of each first. -/
structure SimpleDraft where
  settings : List (Octets × Word) := []
  words : List Word := []
  redirections : List Redirection := []

/-- A function, behind the parenthesis that its name is followed by. -/
def function (rules : Rules) (name : Word) : Reader Command := do
  expect rules {} (.sign ")")
  match name.plain? with
  | some name =>
    if !isName name || specialNames.contains (String.ofList name) then fault .functionName
    return .define name (← rules.command)
  | none => fault .functionName

/-- A simple command, or the function that it turns out to be, in at most so many pieces. -/
def simple (rules : Rules) (line : Nat) : Nat → SimpleDraft → Reader Command
  | 0, _ => unexpected none
  | n + 1, d => do
    match ← token rules { aliases := d.words.isEmpty } with
    | .word =>
      let word := (← get).word
      match if d.words.isEmpty then word.setting? else none with
      | some s => simple rules line n { d with settings := s :: d.settings }
      | none => simple rules line n { d with words := word :: d.words }
    | .redirection =>
      let r ← redirection rules
      simple rules line n { d with redirections := r :: d.redirections }
    | .sign "(" =>
      match d with
      | ⟨[], [name], []⟩ => function rules name
      | _ => done d
    | _ => done d
where
  /-- Ends the command at the token that does not belong to it. -/
  done (d : SimpleDraft) : Reader Command := do
    putBack
    return .simple line d.settings.reverse d.words.reverse d.redirections.reverse

/-! ## Compound commands -/

/-- The commands of a body. -/
def body (rules : Rules) : Reader Command := do
  return (← rules.list .body).getD (.sequence [])

/-- A conditional, behind its first word, with at most so many branches. -/
def conditional (rules : Rules) : Nat → Reader Command
  | 0 => unexpected none
  | n + 1 => do
    let condition ← body rules
    expect rules {} (.keyword "then")
    let first ← body rules
    match ← token rules {} with
    | .keyword "elif" => return .conditional condition first (some (← conditional rules n))
    | .keyword "else" => return .conditional condition first (some (← body rules))
    | _ =>
      putBack
      return .conditional condition first none

/-- The words that come next, at most so many. -/
def words (rules : Rules) : Nat → Reader (List Word)
  | 0 => return []
  | n + 1 => do
    match ← token rules {} with
    | .word =>
      let w := (← get).word
      return w :: (← words rules n)
    | _ => return []

/-- A loop over words, behind its first word. -/
def each (rules : Rules) (line : Nat) : Reader Command := do
  let t ← token rules {}
  let c ← get
  let name := c.word.plain?.getD []
  if t ≠ .word ∨ c.isQuoted ∨ ¬ isName name then fault .loopName
  let t ← token rules Want.command
  let ws ←
    if t = .keyword "in" then do
      let ws ← words rules (← bound)
      let last := (← get).last
      if last ≠ .newline ∧ last ≠ .sign ";" then unexpected none
      pure ws
    else do
      if t ≠ .sign ";" then putBack
      pure [Word.arguments]
  expect rules Want.command (.keyword "do")
  return .each line name ws (← body rules)

/-- The patterns of an arm, the first of which is the last word; at most so many. -/
def patterns (rules : Rules) : Nat → Reader (List Word)
  | 0 => return []
  | n + 1 => do
    let w := (← get).word
    match ← token rules {} with
    | .sign "|" =>
      let _ ← token rules {}
      return w :: (← patterns rules n)
    | _ => return [w]

/-- The arms of a choice, up to its last word; at most so many. -/
def arms (rules : Rules) : Nat → Reader (List (List Word × Option Command))
  | 0 => return []
  | n + 1 => do
    let t ← token rules { keywords := true, pastLines := true }
    if t = .keyword "esac" then return []
    else
      if t = .sign "(" then
        let _ ← token rules {}
      let ws ← patterns rules (← bound)
      if (← get).last ≠ .sign ")" then unexpected (some (.sign ")"))
      let c ← rules.list .inner
      match ← token rules { keywords := true, pastLines := true } with
      | .keyword "esac" => return [(ws, c)]
      | .sign ";;" => return (ws, c) :: (← arms rules n)
      | _ => unexpected (some (.sign ";;"))

/-- A choice, behind its first word. -/
def choice (rules : Rules) (line : Nat) : Reader Command := do
  if (← token rules {}) ≠ .word then unexpected (some .word)
  let w := (← get).word
  expect rules Want.command (.keyword "in")
  return .choice line w (← arms rules (← bound))

/-- A compound command with the redirections behind it. -/
def withRedirections (rules : Rules) (line : Nat) (c : Command) : Reader Command := do
  match ← redirections rules (← bound) with
  | [] => return c
  | rs =>
    match c with
    | .subshell line c _ => return .subshell line c rs
    | c => return .redirected line c rs

/-- A compound command up to the token that closes it, and the redirections behind it. -/
def closedBy (rules : Rules) (line : Nat) (closing : Token) (c : Command) : Reader Command := do
  expect rules {} closing
  withRedirections rules line c

/-- A command that is no pipeline. -/
def command (rules : Rules) (want : Want) : Reader Command := do
  let line := (← get).line
  match ← token rules want with
  | .keyword "if" => closedBy rules line (.keyword "fi") (← conditional rules (← bound))
  | .keyword "while" => loop line false
  | .keyword "until" => loop line true
  | .keyword "for" => closedBy rules line (.keyword "done") (← each rules line)
  | .keyword "case" => withRedirections rules line (← choice rules line)
  | .sign "(" => closedBy rules line (.sign ")") (.subshell line (← body rules) [])
  | .word =>
    putBack
    simple rules (← get).line (← bound) {}
  | .redirection =>
    putBack
    simple rules (← get).line (← bound) {}
  | t => if t = Token.groupOpen then closedBy rules line Token.groupClose (← body rules) else unexpected none
where
  /-- A loop with a condition, behind its first word. -/
  loop (line : Nat) (stopWhen : Bool) : Reader Command := do
    let condition ← body rules
    expect rules {} (.keyword "do")
    closedBy rules line (.keyword "done") (.loop stopWhen condition (← body rules))

/-! ## Lists -/

/-- The commands of a pipeline behind the first, at most so many. -/
def piped (rules : Rules) : Nat → Reader (List Command)
  | 0 => return []
  | n + 1 => do
    match ← token rules {} with
    | .sign "|" =>
      let c ← command rules Want.command
      return c :: (← piped rules n)
    | _ =>
      putBack
      return []

/-- A pipeline, whose code may be turned around. The first token has been put back. -/
def pipeline (rules : Rules) : Reader Command := do
  let negated := (← token rules {}) = .keyword "!"
  if !negated then putBack
  let first ← command rules { aliases := negated, keywords := negated }
  let c :=
    match ← piped rules (← bound) with
    | [] => first
    | more => Command.pipeline (first :: more)
  return if negated then .negation c else c

/-- Goes on with pipelines that depend on the ones before, at most so many. -/
def joinedTo (rules : Rules) : Nat → Command → Reader Command
  | 0, c => return c
  | n + 1, c => do
    match ← token rules {} with
    | .sign "&&" =>
      let _ ← token rules Want.command
      putBack
      joinedTo rules n (.both c (← pipeline rules))
    | .sign "||" =>
      let _ ← token rules Want.command
      putBack
      joinedTo rules n (.either c (← pipeline rules))
    | _ =>
      putBack
      return c

/-- Pipelines that depend on each other. -/
def andOr (rules : Rules) : Reader Command := do
  let first ← pipeline rules
  joinedTo rules (← bound) first

/-- Commands as one. -/
def asOne : List Command → Option Command
  | [] => none
  | [c] => some c
  | cs => some (.sequence cs)

/-- Goes on with a list of commands, the last one first, at most so many. -/
def listFrom (rules : Rules) (kind : ListKind) : Nat → List Command → Reader (Option Command)
  | 0, cs => return asOne cs.reverse
  | n + 1, cs => do
    let t ← token rules { aliases := true, keywords := true, pastLines := kind ≠ .line }
    if t = .newline then
      readDocuments rules
      return asOne cs.reverse
    else if t = .finish then finish cs
    else
      putBack
      if t.closes ∧ (kind = .inner ∨ (kind = .body ∧ ¬ cs.isEmpty)) then return asOne cs.reverse
      else
        let c ← andOr rules
        match ← token rules {} with
        | .sign "&" => listFrom rules kind n (.background c :: cs)
        | .sign ";" => listFrom rules kind n (c :: cs)
        | .newline =>
          putBack
          listFrom rules kind n (c :: cs)
        | .finish => finish (c :: cs)
        | _ =>
          if kind = .line then unexpected none
          putBack
          return asOne (c :: cs).reverse
where
  /-- Ends the list at the end of the text. -/
  finish (cs : List Command) : Reader (Option Command) := do
    readDocuments rules
    let _ ← found .finish
    putBack
    return asOne cs.reverse

/-- A list of commands. -/
def list (rules : Rules) (kind : ListKind) : Reader (Option Command) := do
  listFrom rules kind (← bound) []

/-- The rules with so many levels. -/
def level : Nat → Rules
  | 0 => ⟨fun _ => unexpected none, unexpected none⟩
  | n + 1 => ⟨list (level n), command (level n) Want.command⟩

/-- How many levels there are. -/
def maxLevel : Nat := 1000

/-- What a line of a script holds: nothing more in the text, nothing to be run, or a command, which may be the last of the text. -/
inductive Line where
  | finished
  | blank
  | command (c : Command) (isLast : Bool)

/-- Reads a line of a script, or as many as its commands go over. -/
def line : Reader Line := do
  modify fun c => { c with isPutBack := false, pending := [] }
  let c ← list (level maxLevel) .line
  let cursor ← get
  let atEnd := cursor.isPutBack && cursor.last == .finish
  match c with
  | some c => return .command c atEnd
  | none => return if atEnd then .finished else .blank

/-- A mark that no document has a line of. -/
def noMark : Octets :=
  ['\x00']

/-- Reads a whole text as the lines of a document. -/
def asDocument : Reader Word :=
  documentBody (level maxLevel) ⟨0, noMark, false, true⟩

end Reader

end BootDisk.Shell
