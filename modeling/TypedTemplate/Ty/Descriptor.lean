import TypedTemplate.Object.Basic
import TypedTemplate.Value.Order

/-!
# Descriptors

A type is described by a plain value: a sequence of its tag and its parts. A struct inside the description of its
own fields is described by its name alone, which cuts recursive types off. Types with equal descriptors count as
interchangeable, and `Ty.same` takes them for equal.
-/

namespace TypedTemplate

namespace Ty

mutual

/-- The descriptor of a type, given those of the struct types inside it. -/
def describeWith (struct : StructId → String → Value) : Ty → Value
  | .string => .sequence [.string "String"]
  | .integer => .sequence [.string "Integer"]
  | .float => .sequence [.string "Float"]
  | .boolean => .sequence [.string "Boolean"]
  | .enum name values => .sequence [.string "Enum", .string name, .sequence (values.map .string)]
  | .list element => .sequence [.string "List", describeWith struct element]
  | .map key value => .sequence [.string "Map", describeWith struct key, describeWith struct value]
  | .struct id name => struct id name
  | .choice name alternatives =>
    .sequence [.string "Choice", .string name, .sequence (describeAllWith struct alternatives)]

def describeAllWith (struct : StructId → String → Value) : List Ty → List Value
  | [] => []
  | t :: rest => describeWith struct t :: describeAllWith struct rest

end

def shortForm (name : String) : Value := .sequence [.string "Struct", .string name]

end Ty

/-- The descriptor of a field: its name, whether it is required, its default, whether there is none, and its type. -/
def Field.describeWith (struct : StructId → String → Value) (name : String) (f : Field) : Value :=
  .sequence [.string name, .sequence [
    .bool f.required,
    f.default.elim (.sequence []) Object.toValue,
    .bool f.default.isNone,
    f.ty.describeWith struct]]

namespace Declarations

/-- The descriptor of a struct type, its fields in the order of their names. Struct types that are being described
already appear by name. The first number bounds the nesting of struct types. -/
def describeStruct (d : Declarations) : Nat → List StructId → StructId → String → Value
  | 0, _, _, name => Ty.shortForm name
  | fuel + 1, visiting, id, name =>
    if id ∈ visiting then Ty.shortForm name
    else
      let inner := describeStruct d fuel (id :: visiting)
      .sequence [.string "Struct", .string name, .sequence <|
        (Value.sortByKey (d.fields id)).map fun (field, f) => f.describeWith inner field]

end Declarations

namespace Ty

variable (d : Declarations)

/-- The descriptor of a type. No more struct types than are finished can nest in it, and one more without fields. -/
def descriptor (t : Ty) : Value :=
  t.describeWith (d.describeStruct (d.finished.length + 1) [])

def same (s t : Ty) : Bool := s.descriptor d == t.descriptor d

end Ty

end TypedTemplate
