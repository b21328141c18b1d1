import BootDisk.Shell.Reader.Cursor

/-!
# Reading words

A word is read octet by octet, in layers: a layer is a manner in which text is taken, and a parameter or a sum inside the word may begin
a layer of its own. The commands inside a word are read by the rules for commands, which are given.
-/

namespace BootDisk.Shell

/-- How a list of commands is read: the commands of one line, those of a body, of which there has to be one, or those between other
signs, of which there need not be any. -/
inductive ListKind where
  | line
  | body
  | inner
  deriving DecidableEq, Repr, Inhabited

/-- The rules that the rules of a level refer to. -/
structure Rules where
  list : ListKind → Reader (Option Command)
  command : Reader Command

/-- How text is taken: bare, between double or single quotes, or as a sum. -/
inductive Manner where
  | bare
  | double
  | single
  | sum
  deriving DecidableEq, Repr, Inhabited

/-- What an octet does in a word. -/
inductive Role where
  | finish
  | newline
  | plain
  | kept
  | backslash
  | singleQuote
  | doubleQuote
  | endQuote
  | dollar
  | backquote
  | closeBrace
  | openParen
  | closeParen
  | special
  deriving DecidableEq, Repr, Inhabited

namespace Manner

/-- The octets that end a bare word. -/
def isSpecial (c : Char) : Bool :=
  ['<', '>', '(', ')', ';', '&', '|', ' ', '\t'].contains c

/-- What an octet does, by the manner in which text is taken. -/
def role (m : Manner) : Option Char → Role
  | none => .finish
  | some c =>
    if c = '\n' then .newline
    else
      match m with
      | bare =>
        if c = '\\' then .backslash
        else if c = '\'' then .singleQuote
        else if c = '"' then .doubleQuote
        else if c = Shell.backquote then .backquote
        else if c = '$' then .dollar
        else if c = '\x7d' then .closeBrace
        else if isSpecial c then .special
        else .plain
      | double =>
        if c = '\\' then .backslash
        else if c = '"' then .endQuote
        else if c = Shell.backquote then .backquote
        else if c = '$' then .dollar
        else if c = '\x7d' then .closeBrace
        else .kept
      | single => if c = '\'' then .endQuote else .kept
      | sum =>
        if c = '\\' then .backslash
        else if c = Shell.backquote then .backquote
        else if c = '$' then .dollar
        else if c = '\x7d' then .closeBrace
        else if c = '(' then .openParen
        else if c = ')' then .closeParen
        else .plain

end Manner

/-- A layer: how text is taken, how many parameters in braces are open in it, and how many of them between double quotes. -/
structure Layer where
  manner : Manner
  quoted : Bool := false
  innerQuotes : Bool := false
  ofParameter : Bool := false
  braces : Nat := 0
  quotedBraces : Nat := 0
  parens : Nat := 0
  deriving Repr, Inhabited

/-- A part that is not closed yet. -/
inductive OpenPart where
  | parameter (name : Octets) (use : Word → Use)
  | sum

/-- A word on the way: its layers, the parts of the innermost open part, the last one first, with the text that is gathered, and the open
parts around it. -/
structure Draft where
  layer : Layer
  below : List Layer := []
  text : Octets := []
  isKept : Bool := false
  parts : List Part := []
  around : List (OpenPart × List Part) := []
  anyQuote : Bool := false

namespace Draft

/-- The parts with the text that is gathered. -/
def gathered (d : Draft) : List Part :=
  if d.text = [] then d.parts else .text d.text.reverse d.isKept :: d.parts

/-- Adds an octet. -/
def put (d : Draft) (c : Char) (kept : Bool) : Draft :=
  if d.text = [] ∨ d.isKept = kept then { d with text := c :: d.text, isKept := kept }
  else { d with parts := d.gathered, text := [c], isKept := kept }

/-- Adds a part. -/
def add (d : Draft) (p : Part) : Draft :=
  { d with parts := p :: d.gathered, text := [] }

/-- Changes the layer. -/
def onLayer (d : Draft) (f : Layer → Layer) : Draft :=
  { d with layer := f d.layer }

/-- Begins a layer. -/
def push (d : Draft) (l : Layer) : Draft :=
  { d with layer := l, below := d.layer :: d.below }

/-- Ends a layer. -/
def pop (d : Draft) : Draft :=
  match d.below with
  | l :: below => { d with layer := l, below := below }
  | [] => d

/-- Begins a part that has parts of its own. -/
def opened (d : Draft) (o : OpenPart) : Draft :=
  { d with around := (o, d.gathered) :: d.around, parts := [], text := [] }

/-- Ends the innermost open part. -/
def closed (d : Draft) : Draft :=
  match d.around with
  | (o, before) :: around =>
    let inner := d.gathered.reverse
    let part :=
      match o with
      | .parameter name use => Part.parameter name (use inner)
      | .sum => .sum inner
    { d with parts := part :: before, text := [], around := around }
  | [] => d

/-- The word. -/
def word (d : Draft) : Word :=
  d.gathered.reverse

/-- Notes that quotes begin or end, unless a document is read. -/
def mark (d : Draft) (inDocument : Bool) : Draft :=
  if inDocument then d else d.add .quote

/-- Double quotes inside a parameter begin or end. -/
def toggled (d : Draft) : Draft :=
  d.onLayer fun l => if l.braces = 0 then l else { l with innerQuotes := !l.innerQuotes }

/-- A closing brace. -/
def closeBrace (d : Draft) : Draft :=
  let l := d.layer
  if l.innerQuotes ∨ l.braces = 0 then d.put '\x7d' false
  else if l.braces = 1 ∧ l.ofParameter then d.pop.closed
  else (d.onLayer fun l => { l with braces := l.braces - 1, quotedBraces := l.quotedBraces - 1 }).closed

/-- Double or single quotes end. -/
def endQuote (d : Draft) (c : Char) (inDocument : Bool) : Draft :=
  if inDocument ∧ d.layer.braces = 0 then d.put c false
  else
    let d := { d with anyQuote := true }
    let d := d.onLayer fun l => if l.quotedBraces = 0 then { l with manner := .bare, quoted := false } else l
    (if c = '"' then d.toggled else d).mark inDocument

end Draft

namespace Reader

/-- The signs that name a parameter. -/
def isParameterSign (c : Char) : Bool :=
  ['!', '#', '$', '*', '-', '?', '@'].contains c

/-- Takes the next octet as a manner of text asks for. -/
def nextIn (m : Manner) : Reader (Option Char) :=
  if m = .single then next else nextJoined

/-- Passes over tabs that lines of a document begin with. -/
def skipTabs : Option Char → Octets → Option Char × Octets
  | some '\t', c :: rest => skipTabs (some c) rest
  | some '\t', [] => (none, [])
  | c, rest => (c, rest)

/-- At the start of a line: the octet that is read, or none if the line is the one that ends the document, which is then passed over. -/
def lineStart (document : Option PendingDocument) (c : Option Char) : Reader (Option Char) := do
  match document with
  | none => return c
  | some doc =>
    let rest := (← get).rest
    let (c, rest) := if doc.stripTabs then skipTabs c rest else (c, rest)
    goOn rest
    let line := c.toList ++ rest
    let after := line.drop doc.mark.length
    if doc.mark.isPrefixOf line ∧ (after = [] ∨ after.head? = some '\n') then
      goOn (after.drop 1)
      countLine
      return none
    else return c

/-! ## Commands inside words -/

/-- The text up to a closing backquote, without the backslashes that protect a sign; the text before it is given, the last octet first. -/
def backquoted (quoted : Bool) : Nat → Octets → Reader Octets
  | 0, _ => fault .openBackquote
  | n + 1, taken => do
    match ← nextJoined with
    | none => fault .openBackquote
    | some c =>
      if c = Shell.backquote then return taken.reverse
      else if c = '\\' then
        match ← next with
        | none => fault .openBackquote
        | some e =>
          let protects := e = '\\' ∨ e = Shell.backquote ∨ e = '$' ∨ (quoted ∧ e = '"')
          backquoted quoted n (if protects then e :: taken else e :: '\\' :: taken)
      else
        if c = '\n' then countLine
        backquoted quoted n (c :: taken)

/-- The commands between backquotes, behind the opening one. They are read apart, as a text with lines of its own. -/
def backquotedCommand (rules : Rules) (quoted : Bool) : Reader (Option Command) := do
  let text ← backquoted quoted ((← get).rest.length + 1) []
  let outer ← get
  set { outer with rest := text, line := 1, pending := [], uses := [], isPutBack := false }
  let command ← rules.list .inner
  modify fun c =>
    { c with rest := outer.rest, line := outer.line, pending := outer.pending, uses := outer.uses, isPutBack := false }
  return command

/-- The commands between parentheses, behind the opening one. -/
def parenthesised (rules : Rules) : Reader (Option Command) := do
  let outer := (← get).pending
  modify fun c => { c with pending := [] }
  let command ← rules.list .inner
  if (← takeBack) ≠ .sign ")" then unexpected (some (.sign ")"))
  modify fun c => { c with pending := outer }
  return command

/-! ## Parameters -/

/-- A parameter in a word: its name and what is done with it, if that is known; the octet behind. -/
structure ParameterHead where
  name : Octets
  isLength : Bool
  isUnknown : Bool
  behind : Option Char

/-- The name of a parameter that begins with an octet. -/
def nameFrom (many : Bool) (c : Char) : Reader (Octets × Option Char) := do
  let n := (← get).rest.length + 1
  if isNameStart c then takeKind isNameChar n [c]
  else if many then takeKind Char.isDigit n [c]
  else return ([c], ← nextJoined)

/-- The name of a parameter in braces, whose first octet is given. A number sign before a name asks for a length. -/
def bracedHead (c : Option Char) : Reader ParameterHead := do
  match c with
  | none =>
    let behind ← nextJoined
    return ⟨[], false, true, behind⟩
  | some '\x7d' => return ⟨[], false, true, some '\x7d'⟩
  | some '#' =>
    match ← nextJoined with
    | some e =>
      if isNameChar e then
        let (name, behind) ← nameFrom true e
        return ⟨name, true, behind ≠ some '\x7d', behind⟩
      else
        let behind ← nextJoined
        if e = '\x7d' ∨ behind ≠ some '\x7d' then
          giveBack behind
          return ⟨['#'], false, false, some e⟩
        else return ⟨[e], true, !isParameterSign e, behind⟩
    | none => return ⟨['#'], false, false, none⟩
  | some c =>
    if isNameChar c then
      let (name, behind) ← nameFrom true c
      return ⟨name, false, false, behind⟩
    else
      let behind ← nextJoined
      return ⟨[c], false, !isParameterSign c, behind⟩

/-- What is done with a parameter in braces, and whether the word behind it is bare; none if it is only put in. The octet behind the name
is given. -/
def bracedUse (c : Option Char) : Reader (Option ((Word → Use) × Bool)) := do
  let plainUse (orEmpty : Bool) : Option Char → Option ((Word → Use) × Bool)
    | some '\x7d' => if orEmpty then some (fun _ => .value true, false) else none
    | some '-' => some (fun w => .otherwise w orEmpty, false)
    | some '+' => some (fun w => .instead w orEmpty, false)
    | some '?' => some (fun w => .demand w orEmpty, false)
    | some '=' => some (fun w => .assign w orEmpty, false)
    | _ => some (.unknown, false)
  match c with
  | some ':' => return plainUse true (← nextJoined)
  | some '%' => trimming false '%'
  | some '#' => trimming true '#'
  | c => return plainUse false c
where
  /-- A trim, which goes as far as it can where its sign is doubled. -/
  trimming (atStart : Bool) (sign : Char) : Reader (Option ((Word → Use) × Bool)) := do
    let c ← nextJoined
    if c = some sign then return some (.trim ⟨atStart, true⟩, true)
    else
      giveBack c
      return some (.trim ⟨atStart, false⟩, true)

/-- Opens a parameter in braces that has a word of its own. -/
def openParameter (d : Draft) (name : Octets) (use : Word → Use) (isBare : Bool) : Draft :=
  let manner := if isBare then .bare else if d.layer.manner = .sum then .double else d.layer.manner
  let d := d.opened (.parameter name use)
  let d :=
    if manner ≠ d.layer.manner ∨ d.layer.innerQuotes then d.push { manner := manner, quoted := manner ≠ .bare, ofParameter := true }
    else d
  d.onLayer fun l => { l with braces := l.braces + 1, quotedBraces := if l.quoted then l.quotedBraces + 1 else l.quotedBraces }

/-- A parameter in braces, behind the opening one. -/
def braced (d : Draft) : Reader Draft := do
  let head ← bracedHead (← nextJoined)
  if head.isLength || head.isUnknown then
    giveBack head.behind
    return openParameter d head.name (if head.isUnknown then .unknown else fun _ => .length) false
  else
    match ← bracedUse head.behind with
    | none => return d.add (.parameter head.name (.value false))
    | some (use, isBare) => return openParameter d head.name use isBare

/-- What a dollar sign begins, behind the sign. In the mark of a document it begins nothing. -/
def dollar (rules : Rules) (isMark : Bool) (d : Draft) : Reader Draft := do
  let c ← nextJoined
  match c with
  | none => return d.put '$' false
  | some c =>
    if isMark then
      giveBack (some c)
      return d.put '$' false
    else if c = '(' then
      let e ← nextJoined
      if e = some '(' then return (d.opened .sum).push { manner := .sum, quoted := true }
      else
        giveBack e
        return d.add (.output (← parenthesised rules))
    else if c = '\x7b' then braced d
    else if isNameChar c then
      let (name, behind) ← nameFrom false c
      giveBack behind
      return d.add (.parameter name (.value false))
    else if isParameterSign c then return d.add (.parameter [c] (.value false))
    else
      giveBack (some c)
      return d.put '$' false

/-! ## Words -/

/-- What a backslash protects, behind the backslash. -/
def escaped (d : Draft) (inDocument : Bool) : Reader Draft := do
  match ← next with
  | none => return d.put '\\' true
  | some c =>
    let l := d.layer
    let staysToo :=
      l.quoted ∧ c ≠ '\\' ∧ c ≠ Shell.backquote ∧ c ≠ '$' ∧ (c ≠ '"' ∨ (inDocument ∧ l.braces = 0)) ∧
        (c ≠ '\x7d' ∨ l.braces = 0)
    let d := if staysToo then d.put '\\' true else d
    return { d.put c true with anyQuote := true }

/-- A closing parenthesis in a sum, which ends it if another one follows and none is open. -/
def closeParen (d : Draft) : Reader Draft := do
  if d.layer.parens ≠ 0 then return (d.put ')' false).onLayer fun l => { l with parens := l.parens - 1 }
  else
    let c ← nextJoined
    if c = some ')' then return d.closed.pop
    else
      giveBack c
      return d.put ')' false

/-- Goes on with a word, at most so many octets, up to the octet that ends it, which is given too. -/
def scan (rules : Rules) (isMark : Bool) (document : Option PendingDocument) :
    Nat → Draft → Option Char → Reader (Draft × Option Char)
  | 0, d, c => return (d, c)
  | n + 1, d, c => do
    let goOnWith (d : Draft) : Reader (Draft × Option Char) := do
      scan rules isMark document n d (← nextIn d.layer.manner)
    let sign := c.getD ' '
    match d.layer.manner.role c with
    | .finish => return (d, c)
    | .newline =>
      if d.layer.manner = .bare ∧ d.layer.braces = 0 then return (d, c)
      else
        countLine
        scan rules isMark document n (d.put '\n' false) (← lineStart document (← nextIn d.layer.manner))
    | .plain => goOnWith (d.put sign false)
    | .kept => goOnWith (d.put sign true)
    | .backslash => goOnWith (← escaped d document.isSome)
    | .singleQuote => goOnWith ((d.onLayer fun l => { l with manner := .single }).mark document.isSome)
    | .doubleQuote =>
      goOnWith ((d.onLayer fun l => { l with manner := .double, quoted := true }).toggled.mark document.isSome)
    | .endQuote => goOnWith (d.endQuote sign document.isSome)
    | .dollar => goOnWith (← dollar rules isMark d)
    | .backquote =>
      if isMark then goOnWith (d.put sign false)
      else goOnWith (d.add (.output (← backquotedCommand rules d.layer.quoted)))
    | .closeBrace => goOnWith d.closeBrace
    | .openParen => goOnWith ((d.put '(' false).onLayer fun l => { l with parens := l.parens + 1 })
    | .closeParen => goOnWith (← closeParen d)
    | .special => if d.layer.braces = 0 then return (d, c) else goOnWith (d.put sign false)

/-- Refuses a word that ends within something. -/
def checkEnd (d : Draft) (inDocument : Bool) : Reader Unit := do
  if d.layer.manner = .sum then fault .openSum
  if d.layer.manner ≠ .bare ∧ ¬ inDocument then fault .openQuote
  if d.layer.braces ≠ 0 then fault .openBrace

/-- The sign of a redirection, behind its first octet. -/
def redirectionSign (number : Option Nat) (c : Char) : Reader RedirectionSign := do
  let e ← nextJoined
  if c = '>' then
    let number := number.getD 1
    match e with
    | some '>' => return .file number .append
    | some '|' => return .file number (.write true)
    | some '&' => return .duplicate number
    | e =>
      giveBack e
      return .file number (.write false)
  else
    let number := number.getD 0
    match e with
    | some '<' =>
      let strip ← nextJoined
      if strip ≠ some '-' then giveBack strip
      return .document number (strip = some '-')
    | some '&' => return .duplicate number
    | some '>' => return .file number .both
    | e =>
      giveBack e
      return .file number .read

/-- The file number that a word before the sign of a redirection gives; none if it is no such word. -/
def signNumber? (w : Word) : Option (Option Nat) :=
  match w with
  | [] => some none
  | [.text [c] _] => if c.isDigit then some (some (c.toNat - 48)) else none
  | _ => none

/-- The word that begins with an octet, or the redirection that it turns out to be. -/
def wordFrom (rules : Rules) (isMark : Bool) (c : Option Char) : Reader Token := do
  let n := (← get).rest.length + 2
  let (d, ended) ← scan rules isMark none n { layer := { manner := .bare } } c
  checkEnd d false
  let number := if d.anyQuote then none else signNumber? d.word
  match ended, number with
  | some e, some number =>
    if e = '>' ∨ e = '<' then
      let sign ← redirectionSign number e
      modify fun cursor => { cursor with sign := sign }
      found .redirection
    else asWord d ended
  | _, _ => asWord d ended
where
  /-- Leaves the word with the cursor. -/
  asWord (d : Draft) (ended : Option Char) : Reader Token := do
    giveBack ended
    modify fun cursor => { cursor with word := d.word, isQuoted := d.anyQuote }
    found .word

/-- The lines of a document, up to the one that ends it. -/
def documentBody (rules : Rules) (doc : PendingDocument) : Reader Word := do
  let manner := if doc.expanded then .double else .single
  let n := (← get).rest.length + 2
  let c ← lineStart (some doc) (← nextIn manner)
  let (d, _) ← scan rules false (some doc) n { layer := { manner := manner, quoted := doc.expanded } } c
  checkEnd d true
  return d.word

/-- Reads the documents that are due. -/
def readDocuments (rules : Rules) : Reader Unit := do
  let due := (← get).pending
  modify fun c => { c with pending := [] }
  for doc in due do
    let body ← documentBody rules doc
    modify fun c => { c with documents := c.documents.set! doc.id body }

end Reader

end BootDisk.Shell
