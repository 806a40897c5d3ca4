import TypedTemplate.Decimal.Notation
import TypedTemplate.Entries

/-!
# Values

Plain data: scalars, sequences, and mappings from texts, whose entries keep their order. A mapping holds each key
at most once. `Value.merge` lays one document over another.
-/

namespace TypedTemplate

/-- A value that holds no others. -/
inductive Scalar where
  | null
  | bool (b : Bool)
  | integer (i : Int64)
  | float (x : Binary64)
  | string (s : String)
  deriving DecidableEq, Repr

namespace Scalar

def kindName : Scalar → String
  | null => "null"
  | bool _ => "boolean"
  | integer _ => "integer"
  | float _ => "float"
  | string _ => "string"

def boolText (b : Bool) : String := if b then "true" else "false"

/-- The text of an integer: its decimal digits, behind a minus sign if it is negative. -/
def integerText (i : Int64) : String := i.toInt.repr

def toString : Scalar → String
  | null => "null"
  | bool b => boolText b
  | integer i => integerText i
  | float x => Decimal.Layout.plain.text x
  | string s => s

end Scalar

inductive Value where
  | scalar (s : Scalar)
  | sequence (elements : List Value)
  | mapping (entries : List (String × Value))
  deriving Repr

namespace Value

def null : Value := scalar .null

def bool (b : Bool) : Value := scalar (.bool b)

def string (s : String) : Value := scalar (.string s)

instance : Inhabited Value := ⟨null⟩

def kindName : Value → String
  | scalar s => s.kindName
  | sequence _ => "sequence"
  | mapping _ => "mapping"

def bool? : Value → Option Bool
  | scalar (.bool b) => some b
  | _ => none

def string? : Value → Option String
  | scalar (.string s) => some s
  | _ => none

def sequence? : Value → Option (List Value)
  | sequence elements => some elements
  | _ => none

def mapping? : Value → Option (List (String × Value))
  | mapping entries => some entries
  | _ => none

mutual

def depth : Value → Nat
  | scalar _ => 0
  | sequence elements => elementsDepth elements + 1
  | mapping entries => entriesDepth entries + 1

def elementsDepth : List Value → Nat
  | [] => 0
  | v :: rest => max v.depth (elementsDepth rest)

def entriesDepth : List (String × Value) → Nat
  | [] => 0
  | (_, v) :: rest => max v.depth (entriesDepth rest)

end

/-! ## Text -/

mutual

/-- The text of a value in messages: strings bare, sequences and mappings between brackets and braces. -/
def toString : Value → String
  | scalar s => s.toString
  | sequence elements => "[" ++ String.intercalate ", " (elementTexts elements) ++ "]"
  | mapping entries => "\x7b" ++ String.intercalate ", " (entryTexts entries) ++ "\x7d"

def elementTexts : List Value → List String
  | [] => []
  | v :: rest => v.toString :: elementTexts rest

def entryTexts : List (String × Value) → List String
  | [] => []
  | (k, v) :: rest => (k ++ ": " ++ v.toString) :: entryTexts rest

end

/-! ## Merging -/

mutual

/-- Lays the second value over the first: mappings are merged key by key, and anything else is replaced. -/
def merge (base : Value) : Value → Value
  | mapping overlay =>
    match base with
    | mapping entries => mapping (mergeEntries entries overlay)
    | _ => mapping overlay
  | overlay => overlay

def mergeEntries (base : List (String × Value)) : List (String × Value) → List (String × Value)
  | [] => base
  | (k, v) :: rest =>
    match Entries.find? k base with
    | some b => mergeEntries (Entries.insert k (merge b v) base) rest
    | none => mergeEntries (base ++ [(k, v)]) rest

end

end Value

end TypedTemplate
