import TypedTemplate.Decimal.Reading
import TypedTemplate.Yaml.Glyph
import TypedTemplate.Yaml.Token.Basic

/-!
# Anchors, tags and directives

The names that nodes are given and are mentioned by, the tags that say what a node stands for, and the lines in front
of a document that declare its version and the handles of its tags.
-/

namespace TypedTemplate.Yaml

open Text

/-- The characters of a class that come next, and what follows them. -/
def spanChars (p : Char → Bool) (gs : List Glyph) : String × List Glyph :=
  (String.ofList (chars (gs.takeWhile fun g => p g.char)), gs.dropWhile fun g => p g.char)

/-! ## Anchors -/

def endsName (gs : List Glyph) : Bool :=
  atWhite gs || startsWith (fun c => "?:,]\x7d%@\x60".toList.contains c) gs

def anchorName? (gs : List Glyph) : Option (String × List Glyph) :=
  let (name, rest) := spanChars isNameChar gs
  if name.isEmpty || !endsName rest then none else some (name, rest)

/-! ## Tags -/

def isTagChar (c : Char) : Bool := isNameChar c || ";/?:@&=+$.!~*'()".toList.contains c

/-- Whether a character may stand in a tag that is written in full. -/
def isUriChar (c : Char) : Bool := isTagChar c || c == ',' || c == '[' || c == ']'

/-- Where the reading of a tag's bytes stands: at a character, or within the bytes of one that are written by their
numbers. -/
structure TagBytes where
  acc : List Char := []
  left : Nat := 0
  bits : Nat := 0

/-- How many bytes follow the first byte of a character, and the bits that the first one holds. -/
def leadByte? (b : Nat) : Option (Nat × Nat) :=
  if b < 0x80 then some (0, b)
  else if 0xC0 ≤ b ∧ b < 0xE0 then some (1, b % 0x20)
  else if 0xE0 ≤ b ∧ b < 0xF0 then some (2, b % 0x10)
  else if 0xF0 ≤ b ∧ b < 0xF8 then some (3, b % 0x08)
  else none

def TagBytes.push? (t : TagBytes) (b : Nat) : Option TagBytes :=
  let next? : Option (Nat × Nat) :=
    if t.left = 0 then leadByte? b
    else if 0x80 ≤ b ∧ b < 0xC0 then some (t.left - 1, 64 * t.bits + b % 0x40)
    else none
  match next? with
  | none => none
  | some (0, bits) =>
    if bits.isValidChar then some { acc := Char.ofNat bits :: t.acc } else none
  | some (left, bits) => some { t with left := left, bits := bits }

def byteValue? (high low : Char) : Option Nat := do
  return 16 * (← hexValue? high) + (← hexValue? low)

/-- Reads on in a tag, in which a percent sign introduces the number of a byte. -/
def tagText? (p : Char → Bool) (t : TagBytes) : List Glyph → Option (String × List Glyph)
  | ⟨'%', _, _⟩ :: g :: h :: rest => do
    let b ← byteValue? g.char h.char
    tagText? p (← t.push? b) rest
  | ⟨'%', _, _⟩ :: _ => none
  | g :: rest =>
    if t.left ≠ 0 then none
    else if p g.char then tagText? p { t with acc := g.char :: t.acc } rest
    else some (String.ofList t.acc.reverse, g :: rest)
  | [] => if t.left ≠ 0 then none else some (String.ofList t.acc.reverse, [])

/-- Reads the handle of a tag, whose first exclamation mark has been read: a name behind that mark, and often another
one behind the name. -/
def tagHandle (gs : List Glyph) : String × List Glyph :=
  let (name, rest) := spanChars isNameChar gs
  match rest with
  | ⟨'!', _, _⟩ :: rest => ("!" ++ name ++ "!", rest)
  | rest => ("!" ++ name, rest)

def isNamedHandle (handle : String) : Bool := 1 < handle.length && handle.endsWith "!"

def tagToken? (flow : Bool) (gs : List Glyph) : Option (Token × List Glyph) := do
  let (token, rest) ←
    match gs with
    | ⟨'<', _, _⟩ :: rest => do
      let (uri, rest) ← tagText? isUriChar {} rest
      match rest with
      | ⟨'>', _, _⟩ :: rest => if uri.isEmpty then none else some (Token.tag "" uri, rest)
      | _ => none
    | gs => do
      let (handle, rest) := tagHandle gs
      if isNamedHandle handle then
        let (suffix, rest) ← tagText? isTagChar {} rest
        if suffix.isEmpty then none else some (Token.tag handle suffix, rest)
      else
        let (suffix, rest) ← tagText? isTagChar { acc := (handle.toList.drop 1).reverse } rest
        some (if suffix.isEmpty then Token.tag "" "!" else Token.tag "!" suffix, rest)
  if atWhite rest || (flow && startsWith (· == ',') rest) then some (token, rest) else none

/-! ## Directives -/

def versionNumber? (gs : List Glyph) : Option (Nat × List Glyph) :=
  let (ds, rest) := spanChars isAsciiDigit gs
  if 9 < ds.length then none else (Decimal.natural? ds.toList).map (·, rest)

def dropBlanks (gs : List Glyph) : List Glyph := gs.dropWhile fun g => isBlank g.char

def versionToken? (gs : List Glyph) : Option (Token × List Glyph) := do
  let (major, rest) ← versionNumber? (dropBlanks gs)
  match rest with
  | ⟨'.', _, _⟩ :: rest =>
    let (minor, rest) ← versionNumber? rest
    return (.version major minor, rest)
  | _ => none

/-- Reads a handle and what it stands for, behind the name of their directive. -/
def handleToken? (gs : List Glyph) : Option (Token × List Glyph) := do
  match dropBlanks gs with
  | ⟨'!', _, _⟩ :: rest =>
    let (name, rest) := tagHandle rest
    if name ≠ "!" ∧ !isNamedHandle name then none
    else if !startsWith isBlank rest then none
    else
      let (expansion, rest) ← tagText? isUriChar {} (dropBlanks rest)
      if expansion.isEmpty || !atWhite rest then none else return (.handle name expansion, rest)
  | _ => none

/-- Reads a directive, whose percent sign has been read, to the end of its line. -/
def directive? (gs : List Glyph) : Option (Token × List Glyph) := do
  let (name, rest) := spanChars isNameChar gs
  let (token, rest) ←
    if !atWhite rest then none
    else if name = "YAML" then versionToken? rest
    else if name = "TAG" then handleToken? rest
    else none
  let rest := dropBlanks rest
  if rest.isEmpty || startsWith (fun c => isBreak c || c == '#') rest then
    return (token, (rest.dropWhile fun g => !isBreak g.char).drop 1)
  else none

end TypedTemplate.Yaml
