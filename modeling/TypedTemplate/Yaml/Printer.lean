import TypedTemplate.Yaml.Scalar

/-!
# Writing YAML

Values in the block style. A text is written plain if it is read back as itself, otherwise between single quotes, and
between double quotes if it holds what only escapes can express; a text of several lines is written literally.
-/

namespace TypedTemplate.Yaml

/-! ## The traits of a text -/

def isPrintable (c : Char) : Bool :=
  let n := c.toNat
  c == '\n' || (0x20 ≤ n && n ≤ 0x7E) || (0xA0 ≤ n && n ≤ 0xFFFD && n ≠ 0xFEFF) || 0x10000 ≤ n

def endsLine (c : Char) : Bool := isBreak c || c == '\r' || c == '\u0085'

def isSpaceOrBreak (c : Char) : Bool := isBlank c || endsLine c

def hasNeighbours (p q : Char → Bool) : List Char → Bool
  | c :: d :: cs => (p c && q d) || hasNeighbours p q (d :: cs)
  | _ => false

/-- Whether a character of a class stands in front of white space or at the end of a text. -/
def hasBeforeWhite (p : Char → Bool) : List Char → Bool
  | [] => false
  | [c] => p c
  | c :: d :: cs => (p c && isSpaceOrBreak d) || hasBeforeWhite p (d :: cs)

def isLeadingIndicator (c : Char) : Bool := "#,[]\x7b\x7d&*!|>'\"%@\x60".toList.contains c

/-- Whether a text starts with a sign that introduces an entry or a key. -/
def startsEntry : List Char → Bool
  | [] => false
  | c :: cs => (c == '-' || c == '?') && cs.head?.all isSpaceOrBreak

def hasIndicators (cs : List Char) : Bool :=
  cs.take 3 == ['-', '-', '-'] || cs.take 3 == ['.', '.', '.'] || cs.head?.any isLeadingIndicator || startsEntry cs
    || hasBeforeWhite (· == ':') cs || hasNeighbours isSpaceOrBreak (· == '#') cs

def isMultiline (cs : List Char) : Bool := cs.any endsLine

def needsEscapes (cs : List Char) : Bool := !cs.all isPrintable || hasNeighbours (· == ' ') endsLine cs

/-- Whether a text can be written without quotes, as far as its characters are concerned. -/
def allowsPlain (cs : List Char) : Bool :=
  let isOuter (c : Char) := c == ' ' || endsLine c
  !cs.head?.any isOuter && !cs.getLast?.any isOuter && !isMultiline cs && !needsEscapes cs && !hasIndicators cs

def allowsSingle (cs : List Char) : Bool := !needsEscapes cs && !hasNeighbours endsLine (· == ' ') cs

def allowsLiteral (cs : List Char) : Bool := !needsEscapes cs && cs.getLast? ≠ some ' '

def isAmbiguous (text : String) : Bool :=
  match ofPlain? text with
  | some (.string _) => hasNeedlessZero text.toList
  | _ => true

/-! ## Styles -/

/-- The ways to write a text. -/
inductive Style where
  | plain
  | single
  | double
  | literal
  deriving DecidableEq, Repr

def Style.of (text : String) : Style :=
  let cs := text.toList
  if cs.contains '\n' then if allowsLiteral cs then .literal else .double
  else if !isAmbiguous text && allowsPlain cs then .plain
  else if allowsSingle cs then .single
  else .double

def spaces (n : Nat) : List Char := List.replicate n ' '

/-- Lets each line but the first start with an indentation, unless it is empty. -/
def indentLines (indent : Nat) (afterBreak : Bool) : List Char → List Char
  | [] => []
  | c :: cs =>
    if isBreak c then c :: indentLines indent true cs
    else (if afterBreak then spaces indent else []) ++ c :: indentLines indent false cs

/-- A text between single quotes, each of which is written twice within it. -/
def singleText (indent : Nat) (cs : List Char) : List Char :=
  let body := indentLines indent false (cs.flatMap fun c => if c == '\'' then ['\'', '\''] else [c])
  '\'' :: body ++ (if cs.getLast?.any isBreak then spaces indent else []) ++ ['\'']

def hexCode (width n : Nat) : List Char :=
  let ds := (Nat.toDigits 16 n).map Char.toUpper
  List.replicate (width - ds.length) '0' ++ ds

def doubleChar (c : Char) : List Char :=
  match c with
  | '\x00' => ['\\', '0']
  | '\x07' => ['\\', 'a']
  | '\x08' => ['\\', 'b']
  | '\t' => ['\\', 't']
  | '\n' => ['\\', 'n']
  | '\x0b' => ['\\', 'v']
  | '\x0c' => ['\\', 'f']
  | '\r' => ['\\', 'r']
  | '\x1b' => ['\\', 'e']
  | '"' => ['\\', '"']
  | '\\' => ['\\', '\\']
  | '\u0085' => ['\\', 'N']
  | '\u2028' => ['\\', 'L']
  | '\u2029' => ['\\', 'P']
  | c =>
    if isPrintable c then [c]
    else if c.toNat ≤ 0xFF then '\\' :: 'x' :: hexCode 2 c.toNat
    else if c.toNat ≤ 0xFFFF then '\\' :: 'u' :: hexCode 4 c.toNat
    else '\\' :: 'U' :: hexCode 8 c.toNat

def doubleText (cs : List Char) : List Char := '"' :: cs.flatMap doubleChar ++ ['"']

/-- The head of a literal text: the width of the indentation where the first line would hide it, and what becomes of
the breaks at the end. -/
def literalHead (cs : List Char) : List Char :=
  let width := if cs.head?.any fun c => c == ' ' || isBreak c then ['2'] else []
  let chomping := match cs.reverse with
    | [] => ['-']
    | [c] => if isBreak c then ['+'] else ['-']
    | c :: d :: _ => if isBreak c then if isBreak d then ['+'] else [] else ['-']
  '|' :: width ++ chomping

def text (indent : Nat) (s : String) : String :=
  let cs := s.toList
  String.ofList <|
    match Style.of s with
    | .plain => cs
    | .single => singleText indent cs
    | .double => doubleText cs
    | .literal => literalHead cs ++ '\n' :: indentLines indent true cs

def scalar (indent : Nat) : Scalar → String
  | .null => "null"
  | .bool b => Scalar.boolText b
  | .integer i => Scalar.integerText i
  | .float x => Decimal.Layout.yaml.text x
  | .string s => text indent s

/-! ## Collections -/

/-- Ends the line of a text, unless the text itself has done so. -/
def endLine (t : String) : String := if t.toList.getLast?.any isBreak then t else t ++ "\n"

/-- Texts on lines that start at a column; the first line is there already. -/
def stack (column : Nat) : List String → String
  | [] => ""
  | [t] => t
  | t :: rest => endLine t ++ String.ofList (spaces column) ++ stack column rest

/-- The longest key, in bytes, that is written without a question mark. -/
def maxKeySize : Nat := 128

def isSimpleKey (k : String) : Bool := k.utf8ByteSize ≤ maxKeySize && !isMultiline k.toList

/-- An entry whose value has been written: behind the key, or on lines of its own, which start at a column. -/
def entry (column : Nat) (k : String) (own : Option Nat) (v : String) : String :=
  if isSimpleKey k then
    match own with
    | none => text (column + 2) k ++ ": " ++ v
    | some start => text (column + 2) k ++ ":\n" ++ String.ofList (spaces start) ++ v
  else
    stack column ["? " ++ text (column + 2) k, ": " ++ v]

/-- The column where the value of a key starts on a line of its own; none for what stands behind the key. Mappings are
indented, and sequences are not. -/
def ownColumn (column : Nat) : Value → Option Nat
  | .scalar _ => none
  | .sequence elements => if elements.isEmpty then none else some column
  | .mapping entries => if entries.isEmpty then none else some (column + 2)

def valueColumn (column : Nat) (k : String) (v : Value) : Nat :=
  if isSimpleKey k then (ownColumn column v).getD (column + 2) else column + 2

mutual

/-- A value whose entries start at a column, where the text stands already. -/
def block (column : Nat) : Value → String
  | .scalar s => scalar column s
  | .sequence elements =>
    if elements.isEmpty then "[]" else stack column (blockElements column elements)
  | .mapping entries =>
    if entries.isEmpty then "\x7b\x7d" else stack column (blockEntries column entries)

def blockElements (column : Nat) : List Value → List String
  | [] => []
  | v :: rest => ("- " ++ block (column + 2) v) :: blockElements column rest

def blockEntries (column : Nat) : List (String × Value) → List String
  | [] => []
  | (k, v) :: rest =>
    entry column k (ownColumn column v) (block (valueColumn column k v) v) :: blockEntries column rest

end

def document (v : Value) : String :=
  match v with
  | .scalar s => endLine (scalar 2 s)
  | v => endLine (block 0 v)

end TypedTemplate.Yaml
