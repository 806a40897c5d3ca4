import TypedTemplate.Object.Basic

/-!
# Pruning

A document may hold more than a type has room for. Pruning drops the keys that structs do not declare, in fields,
elements and values of maps alike; choices are left as they are.
-/

namespace TypedTemplate.Ty

variable (d : Declarations)

mutual

def prune (t : Ty) : Value → Value
  | .sequence elements =>
    match t with
    | list element => .sequence (pruneElements element elements)
    | _ => .sequence elements
  | .mapping entries =>
    match t with
    | struct id _ => .mapping (pruneFields (d.fields id) entries)
    | map _ value => .mapping (pruneEntries value entries)
    | _ => .mapping entries
  | v => v

def pruneElements (element : Ty) : List Value → List Value
  | [] => []
  | v :: rest => prune element v :: pruneElements element rest

def pruneEntries (value : Ty) : List (String × Value) → List (String × Value)
  | [] => []
  | (k, v) :: rest => (k, prune value v) :: pruneEntries value rest

def pruneFields (fields : List (String × Field)) : List (String × Value) → List (String × Value)
  | [] => []
  | (k, v) :: rest =>
    match Entries.find? k fields with
    | some f => (k, prune f.ty v) :: pruneFields fields rest
    | none => pruneFields fields rest

end

end TypedTemplate.Ty
