import TypedTemplate.Text.WordTable

/-!
# Word characters

The character classes from which references are spelled. Inside ASCII they are given by their usual
ranges; beyond ASCII by tables of code point ranges.
-/

namespace TypedTemplate.Text

def inRanges (ranges : List (Nat × Nat)) (n : Nat) : Bool :=
  ranges.any fun range => range.1 ≤ n && n ≤ range.2

def isAsciiDigit (c : Char) : Bool := '0' ≤ c && c ≤ '9'

def isAsciiLetter (c : Char) : Bool := ('a' ≤ c && c ≤ 'z') || ('A' ≤ c && c ≤ 'Z')

def isDigit (c : Char) : Bool :=
  if c.toNat < 128 then isAsciiDigit c else inRanges digitRanges c.toNat

/-- A word character: a letter, a mark, a digit, a connector such as `_`, or a joiner. -/
def isWord (c : Char) : Bool :=
  if c.toNat < 128 then isAsciiLetter c || isAsciiDigit c || c == '_'
  else inRanges wordRanges c.toNat

/-- A word character that is no decimal digit; names start with one. -/
def isNameStart (c : Char) : Bool := isWord c && !isDigit c

end TypedTemplate.Text
