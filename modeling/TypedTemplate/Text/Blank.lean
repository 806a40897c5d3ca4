/-!
# Blank characters

The white space that may surround a number in a text, and its removal from both ends.
-/

namespace TypedTemplate.Text

/-- White space of any script: tabs, line ends, spaces of all widths, and the separators of lines and paragraphs. -/
def isBlank (c : Char) : Bool :=
  let n := c.toNat
  (9 ≤ n && n ≤ 13) || n == 0x20 || n == 0x85 || n == 0xA0 || n == 0x1680 || (0x2000 ≤ n && n ≤ 0x200A)
    || n == 0x2028 || n == 0x2029 || n == 0x202F || n == 0x205F || n == 0x3000

def dropEndWhile (p : Char → Bool) (cs : List Char) : List Char :=
  (cs.reverse.dropWhile p).reverse

def trimBlank (cs : List Char) : List Char :=
  dropEndWhile isBlank (cs.dropWhile isBlank)

end TypedTemplate.Text
