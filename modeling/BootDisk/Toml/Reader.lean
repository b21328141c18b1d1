import BootDisk.Toml.Strings
import BootDisk.Toml.Entries

/-!
# Reading a document

From text to statements: headers and keys with values. A reader takes the text that is still ahead and gives what it read with what is
then ahead; where a value starts and ends is told by the length of the two. Arrays and tables in braces may be nested, and keys may be
dotted, up to a fixed depth.
-/

namespace BootDisk.Toml

/-- How deep values may be nested, and how many parts a dotted key may have. -/
def maxDepth : Nat := 79

/-- The text without the spaces at its front. -/
def dropSpace (cs : List Char) : List Char :=
  cs.dropWhile isSpace

/-- The text without the comment at its front. -/
def dropComment : List Char → List Char
  | '#' :: rest => rest.dropWhile isPlain
  | cs => cs

/-- The text behind a line end. -/
def lineEnd? : List Char → Option (List Char)
  | '\n' :: rest => some rest
  | '\r' :: '\n' :: rest => some rest
  | _ => none

/-- The text behind the line a statement ends on: spaces and a comment may follow the statement. -/
def restOfLine? (cs : List Char) : Option (List Char) :=
  match dropComment (dropSpace cs) with
  | [] => some []
  | cs => lineEnd? cs

/-- The text without the spaces, line ends and comments at its front. -/
def dropFiller (inComment : Bool) : List Char → List Char
  | [] => []
  | '\n' :: rest => dropFiller false rest
  | '\r' :: '\n' :: rest => dropFiller false rest
  | c :: rest =>
    if inComment && isPlain c then dropFiller true rest
    else if !inComment && isSpace c then dropFiller false rest
    else if !inComment && c == '#' then dropFiller true rest
    else c :: rest

/-- The characters of a key without quotes. -/
def isKeyChar (c : Char) : Bool :=
  c.isAlphanum || c == '-' || c == '_'

/-- One part of a key. -/
def readKeyPart (cs : List Char) : Option (Key × List Char) :=
  match cs with
  | '"' :: _ | '\'' :: _ =>
    (lineString cs).map fun (s, rest) => (⟨String.ofList s, ⟨cs.length, rest.length⟩⟩, rest)
  | _ =>
    let name := cs.takeWhile isKeyChar
    let rest := cs.dropWhile isKeyChar
    if name = [] then none else some (⟨String.ofList name, ⟨cs.length, rest.length⟩⟩, rest)

/-- The parts of a dotted key, at most so many, and the text behind the spaces that follow. -/
def readKeyParts : Nat → List Char → Option (List Key × List Char)
  | 0, _ => none
  | parts + 1, cs => do
    let (k, rest) ← readKeyPart (dropSpace cs)
    match dropSpace rest with
    | '.' :: rest =>
      let (ks, rest) ← readKeyParts parts rest
      some (k :: ks, rest)
    | rest => some ([k], rest)

/-- A dotted key. -/
def readKey (cs : List Char) : Option (List Key × List Char) :=
  readKeyParts maxDepth cs

/-- Takes a date that goes on, behind one space, with a time; the two are one value. -/
def readRun (cs : List Char) : List Char × List Char :=
  let run := cs.takeWhile isBareChar
  let rest := cs.dropWhile isBareChar
  match rest with
  | ' ' :: d :: more =>
    if isDate run && d.isDigit then
      (run ++ 'T' :: (d :: more).takeWhile isBareChar, (d :: more).dropWhile isBareChar)
    else (run, rest)
  | _ => (run, rest)

/-- A value without quotes or brackets. -/
def readBareValue (cs : List Char) : Option (Node × List Char) :=
  let (run, rest) := readRun cs
  let span : Span := ⟨cs.length, rest.length⟩
  (readBare run).map fun b =>
    match b with
    | .integer n => (.integer n span, rest)
    | .floating x => (.floating x span, rest)
    | .boolean b => (.boolean b span, rest)
    | .moment => (.moment span, rest)

/-- A value that holds no others. -/
def readLeaf (cs : List Char) : Option (Node × List Char) :=
  match cs with
  | '"' :: _ | '\'' :: _ => (anyString cs).map fun (s, rest) => (.string (String.ofList s) ⟨cs.length, rest.length⟩, rest)
  | _ => readBareValue cs

/-- The items of an array up to its closing bracket; a comma may follow the last one. -/
def readItems (value : List Char → Option (Node × List Char)) : Nat → List Char → Option (List Node × List Char)
  | 0, _ => none
  | steps + 1, cs =>
    match dropFiller false cs with
    | ']' :: rest => some ([], rest)
    | cs => do
      let (n, rest) ← value cs
      match dropFiller false rest with
      | ',' :: rest =>
        let (ns, rest) ← readItems value steps rest
        some (n :: ns, rest)
      | ']' :: rest => some ([n], rest)
      | _ => none

/-- A dotted key, the equals sign and a value, with the spaces around them. -/
def readPair (value : List Char → Option (Node × List Char)) (cs : List Char) :
    Option ((List Key × Key × Node) × List Char) := do
  let (keys, rest) ← readKey cs
  let key ← keys.getLast?
  match rest with
  | '=' :: rest =>
    let (n, rest) ← value (dropSpace rest)
    some ((keys.dropLast, key, n), rest)
  | _ => none

/-- The pairs of a table in braces up to its closing brace, at least one. -/
def readPairs (value : List Char → Option (Node × List Char)) : Nat → Entries → List Char → Option (Entries × List Char)
  | 0, _, _ => none
  | steps + 1, es, cs => do
    let ((path, key, n), rest) ← readPair value cs
    let es ← addPair es path key n
    match dropSpace rest with
    | ',' :: rest => readPairs value steps es rest
    | '\x7d' :: rest => some (es, rest)
    | _ => none

/-- A value with at most so many levels of arrays and tables in it. -/
def readValue : Nat → List Char → Option (Node × List Char)
  | 0, cs => readLeaf cs
  | depth + 1, cs =>
    match cs with
    | '[' :: rest =>
      (readItems (readValue depth) (rest.length + 1) rest).map fun (ns, after) =>
        (.array ns ⟨cs.length, after.length⟩, after)
    | '\x7b' :: rest =>
      match dropSpace rest with
      | '\x7d' :: after => some (.table .inline [] (some ⟨cs.length, after.length⟩), after)
      | rest =>
        (readPairs (readValue depth) (rest.length + 1) [] rest).map fun (es, after) =>
          (.table .inline es (some ⟨cs.length, after.length⟩), after)
    | cs => readLeaf cs

/-- One statement of a document. -/
inductive Statement where
  | header (list : Bool) (path : List Key) (span : Span)
  | pair (path : List Key) (key : Key) (value : Node)
  deriving Repr, Inhabited

/-- A header in single or double brackets. -/
def readHeader (cs : List Char) : Option (Statement × List Char) :=
  match cs with
  | '[' :: '[' :: rest => do
    let (keys, rest) ← readKey rest
    match rest with
    | ']' :: ']' :: rest => some (.header true keys ⟨cs.length, rest.length⟩, rest)
    | _ => none
  | '[' :: rest => do
    let (keys, rest) ← readKey rest
    match rest with
    | ']' :: rest => some (.header false keys ⟨cs.length, rest.length⟩, rest)
    | _ => none
  | _ => none

/-- A statement and the rest of its line. -/
def readStatement (cs : List Char) : Option (Statement × List Char) := do
  let (s, rest) ← match cs with
    | '[' :: _ => readHeader cs
    | _ => (readPair (readValue maxDepth) cs).map fun ((path, key, n), rest) => (.pair path key n, rest)
  let rest ← restOfLine? rest
  some (s, rest)

/-- The statements of a text, line by line. -/
def readStatements : Nat → List Char → Option (List Statement)
  | 0, _ => none
  | steps + 1, cs =>
    match dropSpace cs with
    | [] => some []
    | c :: rest =>
      if c == '#' || c == '\n' || c == '\r' then (restOfLine? (c :: rest)).bind (readStatements steps)
      else do
        let (s, rest) ← readStatement (c :: rest)
        let ss ← readStatements steps rest
        some (s :: ss)

/-- A text without the byte order mark it may start with. -/
def dropByteOrderMark : List Char → List Char
  | c :: rest => if c == Char.ofNat 0xFEFF then rest else c :: rest
  | [] => []

/-- The statements of a document. -/
def statements (cs : List Char) : Option (List Statement) :=
  readStatements (cs.length + 1) (dropByteOrderMark cs)

end BootDisk.Toml
