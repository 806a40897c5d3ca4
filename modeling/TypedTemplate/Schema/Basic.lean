import TypedTemplate.Value.Order

/-!
# Schemas

A schema says which JSON values are accepted. It is a truth value, or a collection of constraints all of which must
hold; one of them may be a reference to another schema of the same document.
-/

namespace TypedTemplate

/-- The kinds of JSON values that a schema can ask for, in the order in which messages list them. -/
inductive JsonKind where
  | array
  | boolean
  | integer
  | null
  | number
  | object
  | string
  deriving DecidableEq, Repr

namespace JsonKind

def all : List JsonKind := [array, boolean, integer, null, number, object, string]

def word : JsonKind → String
  | array => "array"
  | boolean => "boolean"
  | integer => "integer"
  | null => "null"
  | number => "number"
  | object => "object"
  | string => "string"

def ofWord? (w : String) : Option JsonKind := all.find? fun k => k.word == w

/-- Whether a value is of a kind. A float without fraction counts as an integer. -/
def accepts (k : JsonKind) (v : Value) : Bool :=
  match k, v with
  | array, .sequence _ => true
  | boolean, .scalar (.bool _) => true
  | integer, .scalar (.integer _) => true
  | integer, .scalar (.float x) => x.toInt?.isSome
  | null, .scalar .null => true
  | number, .scalar (.integer _) => true
  | number, .scalar (.float _) => true
  | object, .mapping _ => true
  | string, .scalar (.string _) => true
  | _, _ => false

end JsonKind

mutual

inductive Schema where
  | always (b : Bool)
  | all (constraints : List Constraint)

/-- A single demand on a value. Those on elements and their number concern sequences alone. -/
inductive Constraint where
  | ref (target : String)
  | anyOf (alternatives : List Schema)
  | const (expected : Value)
  | definitions (named : List (String × Schema))
  | enum (options : List Value)
  | items (element : Schema)
  | tuple (elements : List Schema)
  | maxItems (limit : Nat)
  | minItems (limit : Nat)
  | not (source : Value) (s : Schema)
  | type (kinds : List JsonKind)

end

instance : Inhabited Schema := ⟨.always true⟩

/-- A schema together with the schemas that references in it lead to. -/
structure SchemaDocument where
  root : Schema
  targets : List (String × Schema)

namespace SchemaDocument

def target (doc : SchemaDocument) (r : String) : Schema :=
  (Entries.find? r doc.targets).getD (.always false)

end SchemaDocument

end TypedTemplate
