/-!
# Types

The types of typed objects: scalars, and lists, maps, structs and choices over other types. A struct type is
known by a number under which its fields are declared apart, so that a struct may mention itself in the types
of its fields.
-/

namespace TypedTemplate

/-- The number under which the fields of a struct type are declared. -/
abbrev StructId := Nat

inductive Ty where
  | string
  | integer
  | float
  | boolean
  | enum (name : String) (values : List String)
  | list (element : Ty)
  | map (key value : Ty)
  | struct (id : StructId) (name : String)
  | choice (name : String) (alternatives : List Ty)
  deriving Repr

namespace Ty

instance : Inhabited Ty := ⟨string⟩

def tag : Ty → String
  | string => "String"
  | integer => "Integer"
  | float => "Float"
  | boolean => "Boolean"
  | enum .. => "Enum"
  | list _ => "List"
  | map .. => "Map"
  | struct .. => "Struct"
  | choice .. => "Choice"

/-- The name of a type; those of lists and maps derive from the types they are made of. -/
def name : Ty → String
  | enum name _ => name
  | struct _ name => name
  | choice name _ => name
  | list element => element.name ++ "List"
  | map key value => key.name ++ value.name ++ "Map"
  | string => "String"
  | integer => "Integer"
  | float => "Float"
  | boolean => "Boolean"

def enumOf (values : List String) : Ty :=
  enum ("Enum_" ++ String.intercalate "_" values) values

def choiceOf (alternatives : List Ty) : Ty :=
  choice ("Choice_" ++ String.intercalate "_" (alternatives.map name)) alternatives

def isScalar : Ty → Bool
  | string | integer | float | boolean | enum .. => true
  | _ => false

mutual

def isNamable : Ty → Bool
  | list _ | map .. | struct .. => true
  | choice _ alternatives => anyNamable alternatives
  | _ => false

def anyNamable : List Ty → Bool
  | [] => false
  | t :: rest => t.isNamable || anyNamable rest

end

def alternatives : Ty → List Ty
  | choice _ alternatives => alternatives
  | _ => []

end Ty

end TypedTemplate
