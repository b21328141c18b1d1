/-!
# White space

The characters that count as white space in a text of any script, and what is left of a text without the white space at its
two ends. A name is blank when it holds nothing else.
-/

namespace BootDisk.Text

/-- The characters of the property White_Space: the ASCII blanks and line ends, the next-line mark, the no-break space, and the
spaces and separators of the general punctuation block and beyond. -/
def isBlank (c : Char) : Bool :=
  let n := c.toNat
  (9 ≤ n && n ≤ 13) || n == 0x20 || n == 0x85 || n == 0xA0 || n == 0x1680 || (0x2000 ≤ n && n ≤ 0x200A) ||
    n == 0x2028 || n == 0x2029 || n == 0x202F || n == 0x205F || n == 0x3000

/-- A text is blank when white space is all it holds; the empty text is blank. -/
def allBlank (s : String) : Bool :=
  s.toList.all isBlank

/-- A text without the white space at its start and its end. -/
def trim (s : String) : String :=
  String.ofList (((s.toList.dropWhile isBlank).reverse.dropWhile isBlank).reverse)

end BootDisk.Text
