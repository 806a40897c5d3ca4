/-!
# References

A reference addresses a place inside nested data by a list of components, as in `a.b[c].d`. References are
ordered by length first, so that in an increasing list every reference stands behind those it extends.
-/

namespace TypedTemplate

/-- One step of a reference: into a field by name, or to an element by a token between brackets. -/
inductive Component where
  | dereference (name : String)
  | index (token : String)
  deriving DecidableEq, Repr

namespace Component

def value : Component → String
  | dereference name => name
  | index token => token

def isIndex : Component → Bool
  | index _ => true
  | dereference _ => false

def isDereference : Component → Bool
  | dereference _ => true
  | index _ => false

def toString : Component → String
  | dereference name => "." ++ name
  | index token => "[" ++ token ++ "]"

/-- Components compare by their name or token, and a dereference comes before an index of the same text. -/
def cmp (a b : Component) : Ordering :=
  (compare a.value b.value).then (compare a.isIndex.toNat b.isIndex.toNat)

end Component

/-- A reference, as its components from the outermost inwards. -/
structure Ref where
  components : List Component
  deriving DecidableEq, Repr

namespace Ref

def ofName (name : String) : Ref := ⟨[.dereference name]⟩

def length (r : Ref) : Nat := r.components.length

def isEmpty (r : Ref) : Bool := r.components.isEmpty

def rest (r : Ref) : Ref := ⟨r.components.tail⟩

def isIndex (r : Ref) : Bool := r.components.head?.any Component.isIndex

def isDereference (r : Ref) : Bool := r.components.head?.any Component.isDereference

/-- The second reference read from the place of the first. -/
def concat (r s : Ref) : Ref := ⟨r.components ++ s.components⟩

/-- What `full` adds to `outer`: none if `outer` does not begin it, and none if the two are equal. -/
def subscope (outer full : Ref) : Option Ref :=
  if outer.length < full.length ∧ outer.components <+: full.components then
    some ⟨full.components.drop outer.length⟩
  else
    none

def address (r : Ref) : String :=
  match r.components with
  | [] => ""
  | .dereference name :: rest => name ++ String.join (rest.map Component.toString)
  | .index token :: rest => String.join ((Component.index token :: rest).map Component.toString)

/-- The form in which a template mentions the reference: its address between double braces. -/
def placeholder (r : Ref) : String := "\x7b\x7b" ++ r.address ++ "\x7d\x7d"

/-- Shorter references first; those of one length component by component. -/
def cmp (r s : Ref) : Ordering :=
  (compare r.length s.length).then (List.compareLex Component.cmp r.components s.components)

end Ref

end TypedTemplate
