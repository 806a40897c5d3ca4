import TypedTemplate.Object.Basic
import TypedTemplate.Ref.Parser

/-!
# Environments

An environment is made by flattening: the keys of nested mappings are joined into references, scalars become
texts, and the bindings of an environment inside an entry are taken over behind the entry's reference. A reference
that is bound again keeps its place and takes the new binding.
-/

namespace TypedTemplate

/-- What an entry of an environment is made from. -/
inductive Entry where
  | value (v : Value)
  | object (o : Object)
  | environment (e : Environment)

namespace Environment

def empty : Environment := ⟨[]⟩

def insert (e : Environment) (r : Ref) (b : Binding) : Environment := ⟨Entries.insert r b e.table⟩

/-- Takes over the bindings of the second environment, behind a reference. -/
def absorb (e : Environment) (outer : Ref) (inner : Environment) : Environment :=
  inner.table.foldl (fun e (r, b) => e.insert (outer.concat r) b) e

def unbindable (r : Ref) (v : Value) : Error :=
  (Error.invalidValue
    s!"Environment values must be strings, numbers, objects or mappings, got {v.kindName}").withPath r.address

mutual

def bindValue (e : Environment) (r : Ref) : Value → Except Error Environment
  | .scalar .null => .error (unbindable r .null)
  | .scalar s => .ok (e.insert r (.text s.toString))
  | .sequence elements => .error (unbindable r (.sequence elements))
  | .mapping entries => bindEntries e r entries

def bindEntries (e : Environment) (r : Ref) : List (String × Value) → Except Error Environment
  | [] => .ok e
  | (k, v) :: rest => do
    let inner ← Ref.parse k
    let e ← bindValue e (r.concat inner) v
    bindEntries e r rest

end

def bindEntry (e : Environment) (r : Ref) : Entry → Except Error Environment
  | .value v => e.bindValue r v
  | .object o => .ok (e.insert r (.object o))
  | .environment inner => .ok (e.absorb r inner)

def ofValue (v : Value) : Except Error Environment :=
  match v with
  | .mapping entries => bindEntries empty ⟨[]⟩ entries
  | v => .error (Error.invalidValue s!"Environment expects a mapping, got {v.kindName}")

/-- The environment of several entries, each at its address; later ones win. -/
def ofEntries (entries : List (String × Entry)) : Except Error Environment :=
  entries.foldlM (fun e (address, entry) => do e.bindEntry (← Ref.parse address) entry) empty

/-- The bindings of several environments in one; later ones win. -/
def merge (es : List Environment) : Environment :=
  ⟨es.foldl (fun table e => Entries.insertAll table e.table) []⟩

end Environment

end TypedTemplate
