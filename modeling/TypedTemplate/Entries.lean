/-!
# Entries

Tables that keep their entries in the order in which keys were first inserted: lists of pairs, each key at most
once. A key that is inserted again keeps its place and takes the new value.
-/

namespace TypedTemplate.Entries

variable {α β : Type} [DecidableEq α]

def find? (key : α) : List (α × β) → Option β
  | [] => none
  | (k, v) :: rest => if k = key then some v else find? key rest

/-- Sets the value at a key, in the key's place if it is there already and at the end otherwise. -/
def insert (key : α) (value : β) : List (α × β) → List (α × β)
  | [] => [(key, value)]
  | (k, v) :: rest => if k = key then (key, value) :: rest else (k, v) :: insert key value rest

/-- Inserts the entries of the second table into the first, one after the other. -/
def insertAll (table entries : List (α × β)) : List (α × β) :=
  entries.foldl (fun t e => insert e.1 e.2 t) table

/-- The table of a list of pairs in which keys may come repeatedly. -/
def ofList (entries : List (α × β)) : List (α × β) := insertAll [] entries

def contains (key : α) (table : List (α × β)) : Bool := (find? key table).isSome

def keys (table : List (α × β)) : List α := table.map Prod.fst

end TypedTemplate.Entries
