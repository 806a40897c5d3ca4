import TypedTemplate.Value.Basic

/-!
# The order of values

Values are totally ordered: by kind, then by content. Mappings compare without regard to the order of their
entries, so two values are equal under `Value.cmp` exactly if their sorted forms are the same.
-/

namespace TypedTemplate

namespace Scalar

/-- The place of the scalar's kind in the order. -/
def rank : Scalar → Nat
  | null => 0
  | bool _ => 1
  | integer _ => 2
  | float _ => 3
  | string _ => 4

/-- The order of scalars: by kind, then by content. -/
def cmp : Scalar → Scalar → Ordering
  | bool a, bool b => compare a.toNat b.toNat
  | integer a, integer b => compare a.toInt b.toInt
  | float a, float b => a.cmp b
  | string a, string b => compare a b
  | a, b => compare a.rank b.rank

end Scalar

namespace Value

/-- The place of the value's kind in the order. -/
def rank : Value → Nat
  | scalar s => s.rank
  | sequence _ => 5
  | mapping _ => 6

def sortByKey {β : Type} (entries : List (String × β)) : List (String × β) :=
  entries.mergeSort fun a b => (compare a.1 b.1).isLE

mutual

/-- The value with the entries of all mappings in increasing order of their keys. -/
def sorted : Value → Value
  | sequence elements => sequence (sortedElements elements)
  | mapping entries => mapping (sortByKey (sortedEntries entries))
  | v => v

def sortedElements : List Value → List Value
  | [] => []
  | v :: rest => v.sorted :: sortedElements rest

def sortedEntries : List (String × Value) → List (String × Value)
  | [] => []
  | (k, v) :: rest => (k, v.sorted) :: sortedEntries rest

end

mutual

def cmpSorted : Value → Value → Ordering
  | scalar a, scalar b => a.cmp b
  | sequence a, sequence b => cmpElements a b
  | mapping a, mapping b => cmpEntries a b
  | a, b => compare a.rank b.rank

def cmpElements : List Value → List Value → Ordering
  | [], [] => .eq
  | [], _ :: _ => .lt
  | _ :: _, [] => .gt
  | a :: as, b :: bs => (cmpSorted a b).then (cmpElements as bs)

def cmpEntries : List (String × Value) → List (String × Value) → Ordering
  | [], [] => .eq
  | [], _ :: _ => .lt
  | _ :: _, [] => .gt
  | (k, a) :: as, (l, b) :: bs => (compare k l).then ((cmpSorted a b).then (cmpEntries as bs))

end

def cmp (a b : Value) : Ordering := cmpSorted a.sorted b.sorted

instance : BEq Value := ⟨fun a b => a.cmp b == .eq⟩

end Value

end TypedTemplate
