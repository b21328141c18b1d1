import BootDisk.Toml.Basic

/-!
# Showing a place in a document

A disagreement is shown with the line it is on: the number of the line and the column, the line itself, and marks under the stretch
that is meant. Columns count characters; the number of marks follows the bytes of the stretch and never leaves the line.
-/

namespace BootDisk.Toml

/-- The place of a stretch in a text. -/
structure Position where
  line : Nat
  column : Nat
  content : String
  marks : Nat
  deriving DecidableEq, Repr

/-- Where a stretch starts, on which line, and how many marks it gets there. -/
def position (text : String) (span : Span) : Position :=
  let cs := text.toList
  let offset := cs.length - span.start
  let before := cs.take offset
  let column := (before.reverse.takeWhile (· ≠ '\n')).length
  let content := String.ofList ((cs.drop (offset - column)).takeWhile (· ≠ '\n'))
  let stretch := String.ofList ((cs.drop offset).take (span.start - span.stop))
  { line := before.count '\n' + 1
    column := column + 1
    content := content
    marks := max 1 (min stretch.utf8ByteSize (content.utf8ByteSize - column)) }

/-- The lines that show a stretch of a text, with a message under them. -/
def excerpt (text : String) (span : Span) (message : String) : String :=
  let p := position text span
  let number := toString p.line
  let gutter := String.ofList (List.replicate (number.length + 1) ' ') ++ "|"
  s!"TOML parse error at line {number}, column {p.column}\n" ++
    gutter ++ "\n" ++
    number ++ " | " ++ p.content ++ "\n" ++
    gutter ++ String.ofList (List.replicate p.column ' ' ++ List.replicate p.marks '^') ++ "\n" ++
    message ++ "\n"

end BootDisk.Toml
