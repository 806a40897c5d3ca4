import TypedTemplate.Yaml.Glyph

/-!
# Scalars within lines

Plain and quoted scalars, whose text flows: where it is broken between two lines, the break stands for a space, and
empty lines stand for the breaks.
-/

namespace TypedTemplate.Yaml

/-- White space within a scalar, read so far; backwards. -/
structure Gap where
  escaped : Bool := false
  white : List Glyph := []

namespace Gap

def push (g : Glyph) (gap : Gap) : Gap := { gap with white := g :: gap.white }

def isEmpty (gap : Gap) : Bool := gap.white.isEmpty

def isBroken (gap : Gap) : Bool := gap.white.any fun g => isBreak g.char

/-- What the gap stands for, backwards. Without break that is the white space itself; a single line feed stands for
a space, one that is followed by others for nothing, and all other breaks stand for themselves. -/
def text (gap : Gap) : List Char :=
  let breaks := (chars gap.white).filter isBreak
  if gap.escaped then breaks
  else
    match breaks.reverse with
    | [] => chars gap.white
    | ['\n'] => [' ']
    | '\n' :: others => others.reverse
    | _ => breaks

end Gap

/-! ## Plain scalars -/

def endsPlain (flow : Bool) (c : Char) (rest : List Glyph) : Bool :=
  (c == ':' && atWhite rest) || (flow && isFlowIndicator c)

/-- Whether a colon stands where the flow style does not allow it. -/
def isMisplacedColon (flow : Bool) (c : Char) (rest : List Glyph) : Bool :=
  flow && c == ':' && startsWith (fun d => isFlowIndicator d || d == '?') rest

/-- What a plain scalar was read as: its text, whether its last line ended, and what follows. -/
structure Plain where
  text : String
  broken : Bool
  rest : List Glyph

/-- Reads on in a plain scalar, whose lines are indented at least by `indent` in the block style; `acc` holds the text
before the gap, backwards. -/
def plainScalar (flow : Bool) (indent : Nat) (acc : List Char) (gap : Gap) : List Glyph → Option Plain
  | [] => some ⟨String.ofList acc.reverse, gap.isBroken, []⟩
  | g :: rest =>
    if isWhite g.char then
      if g.char == '\t' && gap.isBroken && g.column < indent then none
      else plainScalar flow indent acc (gap.push g) rest
    else if !gap.isEmpty && ((!flow && g.column < indent) || g.char == '#' || atDocumentMarker (g :: rest)) then
      some ⟨String.ofList acc.reverse, gap.isBroken, g :: rest⟩
    else if isMisplacedColon flow g.char rest then none
    else if endsPlain flow g.char rest then some ⟨String.ofList acc.reverse, gap.isBroken, g :: rest⟩
    else plainScalar flow indent (g.char :: gap.text ++ acc) {} rest

/-! ## Quoted scalars -/

/-- Reads on in a scalar between single quotes, in which two of them stand for one. -/
def singleQuoted (acc : List Char) (gap : Gap) : List Glyph → Option (String × List Glyph)
  | [] => none
  | [g] => if g.char == '\'' then some (String.ofList (gap.text ++ acc).reverse, []) else none
  | g :: h :: rest =>
    if isWhite g.char then singleQuoted acc (gap.push g) (h :: rest)
    else if atDocumentMarker (g :: h :: rest) then none
    else if g.char == '\'' then
      if h.char == '\'' then singleQuoted ('\'' :: gap.text ++ acc) {} rest
      else some (String.ofList (gap.text ++ acc).reverse, h :: rest)
    else singleQuoted (g.char :: gap.text ++ acc) {} (h :: rest)

/-- What stands behind a backslash: a character, or the number of hexadecimal digits of one. -/
inductive Escape where
  | char (c : Char)
  | code (digits : Nat)

def Escape.ofChar? (c : Char) : Option Escape :=
  match c with
  | '0' => some (.char '\x00')
  | 'a' => some (.char '\x07')
  | 'b' => some (.char '\x08')
  | 't' => some (.char '\t')
  | '\t' => some (.char '\t')
  | 'n' => some (.char '\n')
  | 'v' => some (.char '\x0b')
  | 'f' => some (.char '\x0c')
  | 'r' => some (.char '\r')
  | 'e' => some (.char '\x1b')
  | ' ' => some (.char ' ')
  | '"' => some (.char '"')
  | '/' => some (.char '/')
  | '\\' => some (.char '\\')
  | 'N' => some (.char '\u0085')
  | '_' => some (.char '\u00a0')
  | 'L' => some (.char '\u2028')
  | 'P' => some (.char '\u2029')
  | 'x' => some (.code 2)
  | 'u' => some (.code 4)
  | 'U' => some (.code 8)
  | _ => none

/-- Where the reading of a scalar between double quotes stands. -/
inductive Progress where
  | text (gap : Gap)
  | escape
  | code (left : Nat) (value : Nat)

def doubleQuoted (acc : List Char) : Progress → List Glyph → Option (String × List Glyph)
  | _, [] => none
  | .text gap, g :: rest =>
    if isWhite g.char then doubleQuoted acc (.text (gap.push g)) rest
    else if atDocumentMarker (g :: rest) then none
    else if g.char == '"' then some (String.ofList (gap.text ++ acc).reverse, rest)
    else if g.char == '\\' then doubleQuoted (gap.text ++ acc) .escape rest
    else doubleQuoted (g.char :: gap.text ++ acc) (.text {}) rest
  | .escape, g :: rest =>
    if isBreak g.char then doubleQuoted acc (.text { escaped := true }) rest
    else
      match Escape.ofChar? g.char with
      | some (.char c) => doubleQuoted (c :: acc) (.text {}) rest
      | some (.code digits) => doubleQuoted acc (.code digits 0) rest
      | none => none
  | .code left value, g :: rest =>
    match hexValue? g.char with
    | none => none
    | some d =>
      let value := 16 * value + d
      if 1 < left then doubleQuoted acc (.code (left - 1) value) rest
      else if value.isValidChar then doubleQuoted (Char.ofNat value :: acc) (.text {}) rest
      else none

end TypedTemplate.Yaml
