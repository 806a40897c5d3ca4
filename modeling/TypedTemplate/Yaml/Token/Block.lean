import TypedTemplate.Yaml.Glyph
import TypedTemplate.Decimal.Reading

/-!
# Scalars of whole lines

Literal and folded scalars: lines that are indented further than what surrounds them. The head of the scalar says
whether single breaks are folded, what becomes of the breaks at the end, and how far the lines are indented, which is
otherwise seen from the first of them.
-/

namespace TypedTemplate.Yaml

/-- What becomes of the breaks at the end of a scalar. -/
inductive Chomping where
  | strip
  | clip
  | keep
  deriving DecidableEq, Repr

structure BlockHead where
  chomping : Chomping := .clip
  /-- How much further the lines are indented than what surrounds them. -/
  indent : Option Nat := none

namespace BlockHead

def chomping? (c : Char) : Option Chomping :=
  if c == '+' then some .keep else if c == '-' then some .strip else none

def indent? (c : Char) : Option Nat :=
  if '1' ≤ c ∧ c ≤ '9' then some (Decimal.digitValue c) else none

def ofSigns? : List Char → Option BlockHead
  | [] => some {}
  | [c] =>
    match chomping? c with
    | some k => some { chomping := k }
    | none => (indent? c).map fun n => { indent := some n }
  | [c, d] =>
    match chomping? c with
    | some k => (indent? d).map fun n => ⟨k, some n⟩
    | none => (chomping? d).bind fun k => (indent? c).map fun n => ⟨k, some n⟩
  | _ => none

/-- Whether what follows the signs of a head is empty or a comment. -/
def isRemark (gs : List Glyph) : Bool :=
  match gs.dropWhile fun g => isBlank g.char with
  | [] => true
  | g :: _ => g.char == '#'

def ofLine? (line : List Glyph) : Option BlockHead :=
  let isSign (g : Glyph) := (chomping? g.char).isSome || g.char.isDigit
  if isRemark (line.dropWhile isSign) then ofSigns? (chars (line.takeWhile isSign)) else none

end BlockHead

/-! ## Lines -/

/-- A line with the break that ends it, if it is not the last one. -/
abbrev Line := List Glyph

def linesOf (acc : List Glyph) : List Glyph → List Line
  | [] => if acc.isEmpty then [] else [acc.reverse]
  | g :: rest => if isBreak g.char then (g :: acc).reverse :: linesOf [] rest else linesOf (g :: acc) rest

def leadingSpaces (line : Line) : Nat := (line.takeWhile fun g => g.char == ' ').length

inductive Row where
  | empty (ending : Char)
  | text (content : List Char) (ending : Option Char)

/-- Reads a line as one of a scalar that is indented by `indent`. The outer option is none for a tab in the
indentation, and the inner one for a line that follows the scalar. -/
def Row.ofLine? (indent : Nat) (line : Line) : Option (Option Row) :=
  let spaces := leadingSpaces line
  match line.drop (min spaces indent) with
  | [] => some none
  | g :: rest =>
    if isBreak g.char then some (some (.empty g.char))
    else if spaces < indent then if g.char == '\t' then none else some none
    else
      let cs := chars (g :: rest)
      some (some (.text (cs.takeWhile fun c => !isBreak c) (cs.find? isBreak)))

def takeRows (indent : Nat) : List Line → Option (List Row × List Line)
  | [] => some ([], [])
  | line :: rest =>
    match Row.ofLine? indent line with
    | none => none
    | some none => some ([], line :: rest)
    | some (some row) => (takeRows indent rest).map fun (rows, rest) => (row :: rows, rest)

/-- The indentation of lines that is seen from them: that of the first line with a text, or of an empty one before it
that is longer. None if a tab stands in it. -/
def seenIndent? (least : Nat) : List Line → Option Nat
  | [] => some least
  | line :: rest =>
    let spaces := leadingSpaces line
    match line.drop spaces with
    | [] => some (max least spaces)
    | g :: _ =>
      if isBreak g.char then seenIndent? (max least spaces) rest
      else if g.char == '\t' then none
      else some (max least spaces)

/-! ## Text -/

def startsBlank : List Char → Bool
  | [] => false
  | c :: _ => isBlank c

/-- The break at the end of a line, and those of the empty lines that follow. -/
structure Ending where
  first : Option Char := none
  others : List Char := []

namespace Ending

def all (e : Ending) : List Char := e.first.toList ++ e.others

/-- What the breaks between two lines stand for. When they are folded, a single line feed is a space and one before
empty lines is nothing, unless one of the two lines starts with a blank. -/
def between (literal : Bool) (before : List Char) (e : Ending) (after : List Char) : List Char :=
  if !literal && e.first == some '\n' && !startsBlank before && !startsBlank after then
    if e.others.isEmpty then [' '] else e.others
  else
    e.all

def chomped (e : Ending) : Chomping → List Char
  | .strip => []
  | .clip => e.first.toList
  | .keep => e.all

end Ending

/-- The text of a scalar's lines that follow one with the text `before` and the breaks `e`. -/
def rowsText (literal : Bool) (chomping : Chomping) (before : List Char) (e : Ending) : List Row → List Char
  | [] => e.chomped chomping
  | .empty ending :: rest => rowsText literal chomping before { e with others := e.others ++ [ending] } rest
  | .text content ending :: rest =>
    e.between literal before content ++ content ++ rowsText literal chomping content { first := ending } rest

/-- Reads a scalar, whose first sign has been read, within what is indented by `outer`. -/
def blockScalar (literal : Bool) (outer : Option Nat) (gs : List Glyph) : Option (String × List Glyph) := do
  let head ← BlockHead.ofLine? (gs.takeWhile fun g => !isBreak g.char)
  let lines := linesOf [] ((gs.dropWhile fun g => !isBreak g.char).drop 1)
  let indent ← match head.indent with
    | some n => some (outer.getD 0 + n)
    | none => seenIndent? (max 1 (outer.elim 0 (· + 1))) lines
  let (rows, rest) ← takeRows indent lines
  return (String.ofList (rowsText literal head.chomping [] {} rows), rest.flatten)

end TypedTemplate.Yaml
