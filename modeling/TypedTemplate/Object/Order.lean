import TypedTemplate.Object.Interpolate
import TypedTemplate.Value.Hash

/-!
# The order of objects

Objects compare by the kind and the name of their type, by what they come to after interpolation, and last by the
descriptor of their type. Two objects are equal if their types are the same and they come to the same.
-/

namespace TypedTemplate

/-- The place of a kind of type in the order. -/
def Ty.rank : Ty → Nat
  | boolean => 0
  | integer => 1
  | float => 2
  | string => 3
  | enum .. => 4
  | list _ => 5
  | map .. => 6
  | struct .. => 7
  | choice .. => 8

namespace Object

variable (d : Declarations)

def cmp (a b : Object) : Ordering :=
  (compare a.ty.rank b.ty.rank).then <|
    (compare a.typeName b.typeName).then <|
      ((a.snapshot d).cmp (b.snapshot d)).then <|
        (a.ty.descriptor d).cmp (b.ty.descriptor d)

/-- Whether two objects are of the same type and come to the same. -/
def equal (a b : Object) : Bool := a.ty.same d b.ty && a.snapshot d == b.snapshot d

/-- The words from which the hash of an object is computed: equal objects agree in them. -/
def feed (a : Object) : List HashWord := .text a.typeName :: (a.snapshot d).feed

/-- Whether two objects agree in what a hash table sees of them. -/
def hashEqual (a b : Object) : Bool := a.typeName == b.typeName && a.snapshot d == b.snapshot d

end Object

end TypedTemplate
