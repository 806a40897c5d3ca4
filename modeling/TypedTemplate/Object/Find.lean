import TypedTemplate.Object.Construct
import TypedTemplate.Ty.Reach

/-!
# Lookup

Following a reference into an object. What is found sees the scopes of the objects that it was found in; inside a
struct these are the struct's fields, bare and behind `self`, and what lies outside of it, bare and behind
`super`. Keys of maps are compared by what they come to, which a function given as `snapshot` tells.
-/

namespace TypedTemplate

/-! ## The scopes of a struct -/

/-- The environment with all references read from a place further out. -/
def Environment.under (outer : Ref) (e : Environment) : Environment :=
  ⟨e.table.map fun (r, b) => (outer.concat r, b)⟩

/-- A scope outside of a struct, as the struct's fields see it behind `super`. -/
def Scope.asSuper : Scope → Scope
  | .environment e => .environment (e.under (.ofName "super"))
  | .object o => .environment ⟨[(.ofName "super", .object o)]⟩

def fieldBindings : List (String × Option Object) → List (Ref × Binding)
  | [] => []
  | (name, some o) :: rest => (.ofName name, .object o) :: fieldBindings rest
  | (_, none) :: rest => fieldBindings rest

/-- The scopes that the fields of a struct see: the fields behind `self` and bare, then the scopes of the struct bare
and behind `super`. -/
def structScopes (fields : List (String × Option Object)) (outer : List Scope) : List Scope :=
  let own : Environment := ⟨fieldBindings fields⟩
  .environment (own.under (.ofName "self")) :: .environment own :: (outer ++ outer.map Scope.asSuper)

namespace Object

variable (d : Declarations)

/-- The object that a choice has settled for, however often, seen through the scopes of the choice; any other
object is itself, seen through the scopes given. -/
def core (outer : List Scope) : Object → Object
  | ⟨_, .typed inner, scopes, _⟩ => inner.core (scopes ++ outer)
  | ⟨ty, payload, scopes, provided⟩ => ⟨ty, payload, scopes ++ outer, provided⟩

/-- The value of the first pair whose key is of the type of the given one and comes to the same. -/
def findPair (snapshot : Object → Except Error Value) (key : Object) :
    List (Object × Object) → Except Error (Option Object)
  | [] => .ok none
  | (k, v) :: rest =>
    if k.ty.same d key.ty then do
      if (← snapshot k) == (← snapshot key) then return some v else findPair snapshot key rest
    else
      findPair snapshot key rest

def step (snapshot : Object → Except Error Value) (c : Component) (o : Object) : Except Error Object :=
  let misnamed := Error.naming c.toString o.typeName
  let missing := Error.notFound c.toString o.typeName
  match o.payload, c with
  | .list elements, .index token =>
    match Decimal.position? token.toList with
    | none => .error misnamed
    | some i =>
      match elements[i]? with
      | none => .error missing
      | some element => .ok (element.inScopeAll o.scopes)
  | .list _, .dereference _ => .error misnamed
  | .map pairs, .index token =>
    match o.ty with
    | .map keyType _ =>
      match keyType.construct d (.ofText token) with
      | .error _ => .error misnamed
      | .ok key => do
        match ← findPair d snapshot key pairs with
        | none => .error missing
        | some value => return value.inScopeAll o.scopes
    | _ => .error (Error.unnamable o.typeName)
  | .map _, .dereference _ => .error misnamed
  | .struct fields, .dereference name =>
    match Entries.find? name fields with
    | some (some value) => .ok (value.inScopeAll (structScopes fields o.scopes))
    | _ => .error missing
  | .struct _, .index _ => .error misnamed
  | _, _ => .error (Error.unnamable o.typeName)

/-- Goes on with what has been found, if something can be looked up in it. -/
def descend (next : Object → Except Error Object) (found : Object) : Except Error Object :=
  if found.isNamable then next found else .error (Error.unnamable found.typeName)

mutual

/-- Tries the alternatives of a choice in which something can be looked up, in order, with the draft that the choice
holds; failed lookups are passed over. -/
def tryAlternatives (go : Object → Except Error Object) (missing : Error) (draft : Draft) :
    List Ty → Except Error Object
  | [] => .error missing
  | t :: rest =>
    if t.isNamable then
      match tryAlternative go missing draft t with
      | .ok found => .ok found
      | .error e => if e.isLookup then tryAlternatives go missing draft rest else .error e
    else
      tryAlternatives go missing draft rest

def tryAlternative (go : Object → Except Error Object) (missing : Error) (draft : Draft) :
    Ty → Except Error Object
  | .choice _ alternatives => tryAlternatives go missing draft alternatives
  | t =>
    match t.constructDraft d draft with
    | .ok candidate => go candidate
    | .error _ => .error missing

end

/-- Does something in the object that a choice has settled for, or else in the first alternative where it succeeds;
in any other object it is done as it is. -/
def enter (r : Ref) (go : Object → Except Error Object) (o : Object) : Except Error Object :=
  let o := o.core []
  match o.payload with
  | .untyped draft =>
    tryAlternatives d (fun candidate => go (candidate.inScopeAll o.scopes)) (Error.notFound r.address o.typeName)
      draft o.ty.alternatives
  | _ => go o

def findNothing (o : Object) : Except Error Object :=
  match o.payload with
  | .list _ | .map _ | .struct _ => .error Ref.noAction
  | _ => .error (Error.unnamable o.typeName)

def findFrom (snapshot : Object → Except Error Value) : List Component → Object → Except Error Object
  | [], o => enter d ⟨[]⟩ findNothing o
  | [c], o => enter d ⟨[c]⟩ (step d snapshot c) o
  | c :: rest, o =>
    enter d ⟨c :: rest⟩ (fun o => (step d snapshot c o).bind (descend (findFrom snapshot rest))) o

def findBy (snapshot : Object → Except Error Value) (o : Object) (r : Ref) : Except Error Object :=
  findFrom d snapshot r.components o

end Object

/-! ## Environments and scopes -/

namespace Environment

variable (d : Declarations)

def get? (e : Environment) (r : Ref) : Option Binding := Entries.find? r e.table

/-- The objects bound to references that the given one extends, each with what the reference adds; the longest
comes first. -/
def candidates (e : Environment) (r : Ref) : List (Object × Ref) :=
  let inside : List (Ref × Object × Ref) := e.table.filterMap fun
    | (key, .object o) => (key.subscope r).map fun rest => (key, o, rest)
    | (_, .text _) => none
  (inside.mergeSort fun a b => (Ref.cmp b.1 a.1).isLE).map Prod.snd

/-- Looks into candidates one after the other, passing over failed lookups. -/
def findAmong (snapshot : Object → Except Error Value) (missing : Error) :
    List (Object × Ref) → Except Error Binding
  | [] => .error missing
  | (o, rest) :: others =>
    match o.findBy d snapshot rest with
    | .ok found => .ok (.object found)
    | .error e => if e.isLookup then findAmong snapshot missing others else .error e

/-- What a reference stands for: its own binding, or else what the rest of it leads to in an object that a shorter
one is bound to. -/
def findBy (snapshot : Object → Except Error Value) (e : Environment) (r : Ref) : Except Error Binding :=
  match e.get? r with
  | some b => .ok b
  | none => findAmong d snapshot (Error.notFound r.address "Environment") (e.candidates r)

/-- Whether a reference is bound, or promised by the type of an object that a shorter one is bound to. -/
def provides (e : Environment) (r : Ref) : Bool :=
  (e.get? r).isSome || (e.candidates r).any fun (o, rest) => o.ty.provides d rest

end Environment

namespace Scope

variable (d : Declarations)

def findBy (snapshot : Object → Except Error Value) (s : Scope) (r : Ref) : Except Error Binding :=
  match s with
  | environment e => e.findBy d snapshot r
  | object o => (o.findBy d snapshot r).map .object

def provides (s : Scope) (r : Ref) : Bool :=
  match s with
  | environment e => e.provides d r
  | object o => o.ty.provides d r

end Scope

end TypedTemplate
