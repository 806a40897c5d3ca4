import TypedTemplate.Decimal.Reading
import TypedTemplate.Value.Basic
import TypedTemplate.Yaml.Glyph

/-!
# What scalars stand for

A plain scalar that is spelled like nothing at all, a truth value or a number stands for it, and any other scalar for
its own text. A tag says outright what a scalar stands for.
-/

namespace TypedTemplate.Yaml

/-! ## Words -/

def isNullWord (s : String) : Bool := ["null", "Null", "NULL", "~"].contains s

def boolWord? (s : String) : Option Bool :=
  if ["true", "True", "TRUE"].contains s then some true
  else if ["false", "False", "FALSE"].contains s then some false
  else none

/-! ## Numbers -/

def dropPlus : List Char → List Char
  | '+' :: cs => cs
  | cs => cs

def startsSigned : List Char → Bool
  | c :: _ => c == '+' || c == '-'
  | [] => false

def digit? (base : Nat) (c : Char) : Option Nat := (hexValue? c).filter (· < base)

def digits? (base : Nat) : List Char → Option Nat
  | [] => none
  | cs => cs.foldl (fun n c => do return base * (← n) + (← digit? base c)) (some 0)

def base? (c : Char) : Option Nat :=
  if c == 'x' then some 16 else if c == 'o' then some 8 else if c == 'b' then some 2 else none

/-- Whether a text has the form of a number that starts with a needless zero. -/
def hasNeedlessZero (cs : List Char) : Bool :=
  match (Decimal.sign cs).2 with
  | '0' :: d :: ds => (d :: ds).all Text.isAsciiDigit
  | _ => false

def magnitude? (cs : List Char) : Option Nat :=
  match cs with
  | ['0'] => some 0
  | '0' :: c :: ds => (base? c).bind fun base => digits? base ds
  | cs => Decimal.natural? cs

/-- An integer of any size: decimal digits without a needless zero, or digits of another base behind its sign. -/
def integer? : List Char → Option Int
  | '-' :: cs => (magnitude? cs).map fun n => -(n : Int)
  | cs => (magnitude? (dropPlus cs)).map fun n => (n : Int)

/-- Whether an integer fits into 128 bits, with or without a sign. -/
def fits128 (i : Int) : Bool := -Int.pow 2 127 ≤ i && i < Int.pow 2 128

def float? (cs : List Char) : Option Binary64 :=
  let body := dropPlus cs
  let word := String.ofList body
  if body.length < cs.length && startsSigned body then none
  else if [".inf", ".Inf", ".INF"].contains word then some (.infinity false)
  else if ["-.inf", "-.Inf", "-.INF"].contains (String.ofList cs) then some (.infinity true)
  else if [".nan", ".NaN", ".NAN"].contains (String.ofList cs) then some (.nan false)
  else (Decimal.binary64? body).filter (·.isFinite)

/-! ## Scalars -/

/-- An integer as a value. One beyond 64 bits is a floating point number if it has no sign and 64 bits, and no value
at all otherwise. -/
def ofInteger? (i : Int) : Option Scalar :=
  if Decimal.fitsInt64 i then some (.integer (Int64.ofInt i))
  else if 0 ≤ i ∧ i < Int.pow 2 64 then some (.float (Binary64.ofInt i))
  else none

/-- What a plain scalar stands for; none if that is an integer which is no value. -/
def ofPlain? (text : String) : Option Scalar :=
  let cs := text.toList
  if text.isEmpty || isNullWord text then some .null
  else
    match boolWord? text with
    | some b => some (.bool b)
    | none =>
      match (integer? cs).filter fits128 with
      | some i => ofInteger? i
      | none =>
        match if hasNeedlessZero cs then none else float? cs with
        | some x => some (.float x)
        | none => some (.string text)

def coreTag : String := "tag:yaml.org,2002:"

/-- Whether a tag is one of the document's own, which no value has. -/
def isLocalTag (tag : Option String) : Bool := tag.any fun t => t.startsWith "!"

/-- What a scalar stands for; none if it is not spelled like what its tag says. -/
def resolve? (tag : Option String) (plain : Bool) (text : String) : Option Scalar :=
  match tag with
  | none => if plain then ofPlain? text else some (.string text)
  | some t =>
    if isLocalTag tag then none
    else if t = coreTag ++ "bool" then (boolWord? text).map .bool
    else if t = coreTag ++ "int" then ((integer? text.toList).filter fits128).bind ofInteger?
    else if t = coreTag ++ "float" then (float? text.toList).map .float
    else if t = coreTag ++ "null" then if isNullWord text then some .null else none
    else some (.string text)

end TypedTemplate.Yaml
