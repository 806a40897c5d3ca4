import TypedTemplate.Yaml.Token.Block
import TypedTemplate.Yaml.Token.Flow
import TypedTemplate.Yaml.Token.Property

/-!
# The tokens of a text

Splitting a text into tokens. Indentation opens and closes block collections. A node turns out to be a key only by the
colon behind it, on the same line and not too far away; the token of the key is then put in front of the node.
-/

namespace TypedTemplate.Yaml

/-- A node that may turn out to be a key. -/
structure PendingKey where
  before : Nat
  required : Bool
  line : Nat
  column : Nat

def PendingKey.maxLength : Nat := 1024

/-- Where the splitting of a text stands. -/
structure Stream where
  /-- The tokens so far, backwards. -/
  tokens : List Token := []
  /-- The columns of the block collections that are open, the innermost first. -/
  indents : List Nat := []
  /-- The node that may be a key in the innermost flow collection, or outside of all. -/
  key : Option PendingKey := none
  /-- The same for all that the innermost collection lies in. -/
  outerKeys : List (Option PendingKey) := []
  /-- Whether a key may start here. -/
  keyAllowed : Bool := true

namespace Stream

def inFlow (s : Stream) : Bool := !s.outerKeys.isEmpty

def indent? (s : Stream) : Option Nat := s.indents.head?

/-- The least column at which a text within the innermost block collection stands. -/
def leastColumn (s : Stream) : Nat := s.indent?.elim 0 (· + 1)

def push (t : Token) (s : Stream) : Stream := { s with tokens := t :: s.tokens }

def insertAfter (before : Nat) (t : Token) (s : Stream) : Stream :=
  { s with tokens := s.tokens.insertIdx (s.tokens.length - before) t }

def allowKey (allowed : Bool) (s : Stream) : Stream := { s with keyAllowed := allowed }

/-! ## Keys -/

/-- Gives up that a node may be a key; it must not be one that is required. -/
def giveUp (key : Option PendingKey) : Option Unit :=
  match key with
  | some k => if k.required then none else some ()
  | none => some ()

def dropKey (s : Stream) : Option Stream := do
  giveUp s.key
  return { s with key := none }

/-- Notes that the node at a place may be a key, if one may start there. -/
def noteKey (g : Glyph) (s : Stream) : Option Stream :=
  if s.keyAllowed then do
    let s ← s.dropKey
    let required := !s.inFlow && s.indent? == some g.column
    return { s with key := some ⟨s.tokens.length, required, g.line, g.column⟩ }
  else
    some s

def freshKey (g : Glyph) (key : Option PendingKey) : Option (Option PendingKey) :=
  match key with
  | none => some none
  | some k =>
    if k.line < g.line || k.column + PendingKey.maxLength < g.column then do
      giveUp (some k)
      return none
    else
      some (some k)

def dropStale (g : Glyph) (s : Stream) : Option Stream := do
  let key ← freshKey g s.key
  let outer ← s.outerKeys.mapM (freshKey g)
  return { s with key := key, outerKeys := outer }

/-! ## Block collections -/

/-- Drops the indentations beyond a column and notes the end of a collection for each of them; all of them where there
is no column. -/
def closeLevels (column : Option Nat) : List Nat → List Token → List Nat × List Token
  | [], ts => ([], ts)
  | i :: rest, ts =>
    if column.all (· < i) then closeLevels column rest (.blockEnd :: ts) else (i :: rest, ts)

/-- Closes the block collections that are indented beyond a column. -/
def close (column : Option Nat) (s : Stream) : Stream :=
  if s.inFlow then s
  else
    let (indents, tokens) := closeLevels column s.indents s.tokens
    { s with indents := indents, tokens := tokens }

/-- Opens a block collection at a column, if it is indented beyond those that are open. Its token comes behind the
first `before` of the others. -/
def openBlock (column : Nat) (before : Nat) (t : Token) (s : Stream) : Stream :=
  if s.inFlow || s.indent?.any (column ≤ ·) then s
  else { s.insertAfter before t with indents := column :: s.indents }

/-! ## Single tokens -/

def documentToken (t : Token) (rest : List Glyph) (s : Stream) : Option (Stream × List Glyph) := do
  let s ← (s.close none).dropKey
  return ((s.push t).allowKey false, rest.drop 2)

def directiveToken (rest : List Glyph) (s : Stream) : Option (Stream × List Glyph) := do
  let s ← (s.close none).dropKey
  let (t, rest) ← directive? rest
  return ((s.push t).allowKey false, rest)

def openFlow (g : Glyph) (t : Token) (s : Stream) : Option Stream := do
  let s ← s.noteKey g
  return { s.push t with outerKeys := s.key :: s.outerKeys, key := none, keyAllowed := true }

def closeFlow (t : Token) (s : Stream) : Option Stream := do
  let s ← s.dropKey
  let s := match s.outerKeys with
    | [] => s
    | key :: outer => { s with key := key, outerKeys := outer }
  return (s.push t).allowKey false

def commaToken (s : Stream) : Option Stream := do
  let s ← s.dropKey
  return (s.push .comma).allowKey true

/-- The dash in front of an entry, or the question mark in front of a key. -/
def introduce (g : Glyph) (collection t : Token) (allowed : Bool) (s : Stream) : Option Stream := do
  if !s.inFlow && !s.keyAllowed then none
  else
    let s ← (s.openBlock g.column s.tokens.length collection).dropKey
    return (s.push t).allowKey allowed

/-- The colon behind a key, in front of which the token of the key is put, or without one. -/
def valueToken (g : Glyph) (s : Stream) : Option Stream :=
  match s.key with
  | some k =>
    let s := (s.insertAfter k.before .key).openBlock k.column k.before .blockMappingStart
    some { s.push .value with key := none, keyAllowed := false }
  | none =>
    if !s.inFlow && !s.keyAllowed then none
    else
      let s := s.openBlock g.column s.tokens.length .blockMappingStart
      some ((s.push .value).allowKey !s.inFlow)

def nodeToken (g : Glyph) (s : Stream) (read : Option (Token × List Glyph)) : Option (Stream × List Glyph) := do
  let s ← s.noteKey g
  let (t, rest) ← read
  return ((s.push t).allowKey false, rest)

def plainToken (g : Glyph) (rest : List Glyph) (s : Stream) : Option (Stream × List Glyph) := do
  let s ← s.noteKey g
  let p ← plainScalar s.inFlow s.leastColumn [] {} (g :: rest)
  return ((s.push (.scalar true p.text)).allowKey p.broken, p.rest)

def quotedToken (g : Glyph) (s : Stream) (read : Option (String × List Glyph)) : Option (Stream × List Glyph) :=
  s.nodeToken g (read.map fun (text, rest) => (.scalar false text, rest))

def blockToken (literal : Bool) (rest : List Glyph) (s : Stream) : Option (Stream × List Glyph) := do
  let s ← s.dropKey
  let (text, rest) ← blockScalar literal s.indent? rest
  return ((s.push (.scalar false text)).allowKey true, rest)

def startsPlain (flow : Bool) (c : Char) (rest : List Glyph) : Bool :=
  if c == '-' then !startsWith isBlank rest
  else if c == '?' || c == ':' then !flow && !atWhite rest
  else !isWhite c && !",[]\x7b\x7d#&*!|>'\"%@\x60".toList.contains c

/-- Reads the next token, whose first character is given; those that are implied by its place have been noted. -/
def next (g : Glyph) (rest : List Glyph) (s : Stream) : Option (Stream × List Glyph) :=
  if g.column == 0 && g.char == '%' then s.directiveToken rest
  else if atMarker '-' (g :: rest) then s.documentToken .documentStart rest
  else if atMarker '.' (g :: rest) then s.documentToken .documentEnd rest
  else
    match g.char with
    | '[' => (s.openFlow g .flowSequenceStart).map (·, rest)
    | '{' => (s.openFlow g .flowMappingStart).map (·, rest)
    | ']' => (s.closeFlow .flowSequenceEnd).map (·, rest)
    | '}' => (s.closeFlow .flowMappingEnd).map (·, rest)
    | ',' => s.commaToken.map (·, rest)
    | '*' => s.nodeToken g ((anchorName? rest).map fun (name, rest) => (.alias name, rest))
    | '&' => s.nodeToken g ((anchorName? rest).map fun (name, rest) => (.anchor name, rest))
    | '!' => s.nodeToken g (tagToken? s.inFlow rest)
    | '\'' => s.quotedToken g (singleQuoted [] {} rest)
    | '"' => s.quotedToken g (doubleQuoted [] (.text {}) rest)
    | c =>
      if c == '-' && atWhite rest then
        (s.introduce g .blockSequenceStart .entry true).map (·, rest)
      else if c == '?' && (s.inFlow || atWhite rest) then
        (s.introduce g .blockMappingStart .key !s.inFlow).map (·, rest)
      else if c == ':' && (s.inFlow || atWhite rest) then (s.valueToken g).map (·, rest)
      else if c == '|' && !s.inFlow then s.blockToken true rest
      else if c == '>' && !s.inFlow then s.blockToken false rest
      else if startsPlain s.inFlow c rest then s.plainToken g rest
      else none

/-! ## All tokens -/

/-- Skips what stands between tokens: white space, of which tabs only where no key may start, and comments. A new line
allows a key outside of flow collections. -/
def skipSpace (flow : Bool) (inComment allowed : Bool) : List Glyph → Bool × List Glyph
  | [] => (allowed, [])
  | g :: rest =>
    if isBreak g.char then skipSpace flow false (allowed || !flow) rest
    else if inComment || g.char == '#' then skipSpace flow true allowed rest
    else if g.char == ' ' || (g.char == '\t' && (flow || !allowed)) || (g.column == 0 && isByteOrderMark g.char) then
      skipSpace flow false allowed rest
    else (allowed, g :: rest)

/-- Splits what is left of a text. Every token has a character of its own, so that as much fuel as there are
characters is enough. -/
def run : Nat → Stream → List Glyph → Option (List Token)
  | 0, _, _ => none
  | fuel + 1, s, gs =>
    match skipSpace s.inFlow false s.keyAllowed gs with
    | (_, []) => do
      let s ← (s.close none).dropKey
      return s.tokens.reverse
    | (allowed, g :: rest) => do
      let s ← (s.allowKey allowed).dropStale g
      let (s, rest) ← (s.close (some g.column)).next g rest
      run fuel s rest

end Stream

def tokens? (gs : List Glyph) : Option (List Token) := Stream.run (gs.length + 1) {} gs

end TypedTemplate.Yaml
