/-!
# Characters in their places

A YAML text as a list of characters, each with the line and the column where it stands: in YAML, indentation has a
meaning. All line ends are brought into one form, and texts with other control characters are refused.
-/

namespace TypedTemplate.Yaml

/-- A character and its place, counted from zero. -/
structure Glyph where
  char : Char
  line : Nat
  column : Nat
  deriving Repr

/-! ## Classes of characters -/

def isBreak (c : Char) : Bool := c == '\n' || c == '\u2028' || c == '\u2029'

def isBlank (c : Char) : Bool := c == ' ' || c == '\t'

def isWhite (c : Char) : Bool := isBlank c || isBreak c

def isNameChar (c : Char) : Bool := c.isAlphanum || c == '_' || c == '-'

def isFlowIndicator (c : Char) : Bool :=
  c == ',' || c == '[' || c == ']' || c == '{' || c == '}'

def isAllowed (c : Char) : Bool :=
  let n := c.toNat
  n == 0x09 || n == 0x0A || n == 0x0D || (0x20 ≤ n && n ≤ 0x7E) || n == 0x85 || (0xA0 ≤ n && n ≤ 0xFFFD)
    || 0x10000 ≤ n

def isByteOrderMark (c : Char) : Bool := c == '\uFEFF'

def hexValue? (c : Char) : Option Nat :=
  if '0' ≤ c ∧ c ≤ '9' then some (c.toNat - '0'.toNat)
  else if 'a' ≤ c ∧ c ≤ 'f' then some (c.toNat - 'a'.toNat + 10)
  else if 'A' ≤ c ∧ c ≤ 'F' then some (c.toNat - 'A'.toNat + 10)
  else none

/-! ## Reading a text -/

/-- Writes every kind of line end but the separators of lines and paragraphs as a single line feed. -/
def unifyBreaks : List Char → List Char
  | '\r' :: '\n' :: cs => '\n' :: unifyBreaks cs
  | '\r' :: cs => '\n' :: unifyBreaks cs
  | '\u0085' :: cs => '\n' :: unifyBreaks cs
  | c :: cs => c :: unifyBreaks cs
  | [] => []

def placeFrom (line column : Nat) : List Char → List Glyph
  | [] => []
  | c :: cs => ⟨c, line, column⟩ :: if isBreak c then placeFrom (line + 1) 0 cs else placeFrom line (column + 1) cs

/-- The characters of a text; none if it holds one that is not allowed. -/
def Glyph.ofText? (text : String) : Option (List Glyph) :=
  let cs := text.toList
  if cs.all isAllowed then some (placeFrom 0 0 (unifyBreaks cs)) else none

/-! ## Looking ahead -/

/-- The column where the text goes on; its end counts as the beginning of a line. -/
def column : List Glyph → Nat
  | [] => 0
  | g :: _ => g.column

def startsWith (p : Char → Bool) : List Glyph → Bool
  | [] => false
  | g :: _ => p g.char

def atWhite : List Glyph → Bool
  | [] => true
  | g :: _ => isWhite g.char

/-- Whether the text goes on with a line that starts with three characters `c` on their own. -/
def atMarker (c : Char) : List Glyph → Bool
  | g :: h :: i :: rest => g.column == 0 && g.char == c && h.char == c && i.char == c && atWhite rest
  | _ => false

def atDocumentMarker (gs : List Glyph) : Bool := atMarker '-' gs || atMarker '.' gs

def chars (gs : List Glyph) : List Char := gs.map Glyph.char

end TypedTemplate.Yaml
