import TypedTemplate.Object.Find
import TypedTemplate.Template.Resolve

/-!
# Interpolation

Resolving the templates in an object against its scopes. The result carries no scopes, and comes with the
references that stay unbound, each once. What a reference stands for is rendered, which interpolates it in turn;
such renders nest at most `maxDepth` levels deep. The definitions recurse over the object; where they have to
evaluate an object that is not a part of it, they spend one unit of a budget.
-/

namespace TypedTemplate

/-- The outcome of interpolating an object. -/
abbrev Interpolated := Except Error (Object × List Ref)

def maxDepth : Nat := 64

namespace Object

/-- What an object comes to when it is compared: the plain data in it after interpolation, or as it stands if it
cannot be interpolated. The comparison fails if the evaluation exhausts its budget. -/
def snapshotBy (eval : Object → Interpolated) (o : Object) : Except Error Value :=
  match eval o with
  | .ok (resolved, _) => .ok resolved.toValue
  | .error e => if e.kind = .exhausted then .error e else .ok o.toValue

end Object

/-- The text of what has been found, one level of renders further in. -/
def Binding.renderBy (eval : Nat → Object → Interpolated) (depth : Nat) (b : Binding) : Except Error String :=
  if maxDepth ≤ depth then
    .error (Error.uninterpolatable s!"Maximum render depth {maxDepth} exceeded; a value refers to itself")
  else
    match b with
    | text s => .ok s
    | object o => (eval (depth + 1) o).map fun (resolved, _) => resolved.toString

section

variable (d : Declarations)

/-- The text that the first scope which knows a reference has for it. -/
def lookupBy (eval : Nat → Object → Interpolated) (depth : Nat) : List Scope → Template.Lookup
  | [], _ => .ok none
  | s :: rest, r =>
    match s.findBy d (Object.snapshotBy (eval depth)) r with
    | .ok b => (b.renderBy eval depth).map some
    | .error e => if e.isLookup then lookupBy eval depth rest r else .error e

/-- The references of a list without repetitions, each at its first place. -/
def distinct (refs : List Ref) : List Ref :=
  refs.foldl (fun seen r => if r ∈ seen then seen else seen ++ [r]) []

namespace Object

/-- The value of a scalar with placeholders: converted to its type once nothing is left to resolve. -/
def resolveTemplate (eval : Nat → Object → Interpolated) (depth : Nat) (scopes : List Scope) (t : Ty)
    (text : String) : Interpolated := do
  let (joined, unbound) ← Template.resolve (lookupBy d eval depth scopes) text
  if unbound.isEmpty then
    return (.ofPayload t (.scalar (← t.coerce (.string joined))), [])
  else
    return (.ofPayload t (.template joined), unbound)

/-- What a choice settles for: the first alternative that takes its draft and can be interpolated. A text that still
has references settles for nothing. -/
def settleChoice (eval : Object → Interpolated) (scopes : List Scope) (t : Ty) (draft : Draft) :
    List Ty → Interpolated
  | [] =>
    .error <| (Error.typeCoercion draft.toString t.name).withCause
      s!"No alternative of {t.name} accepts the value"
  | alternative :: rest =>
    match alternative.constructDraft d draft with
    | .error _ => settleChoice eval scopes t draft rest
    | .ok candidate =>
      match eval (candidate.inScopeAll scopes) with
      | .ok (resolved, refs) =>
        match resolved.payload, refs with
        | .template text, _ :: _ => .ok (.ofPayload t (.untyped (.scalar (.string text))), refs)
        | _, refs => .ok (.ofPayload t (.typed resolved), refs)
      | .error e =>
        match e.kind with
        | .typeCoercion .. => settleChoice eval scopes t draft rest
        | _ => .error e

mutual

/-- Interpolates an object that sees further scopes behind its own. -/
def interpolateIn (eval : Nat → Object → Interpolated) (depth : Nat) (outer : List Scope) :
    Object → Interpolated
  | ⟨ty, payload, scopes, _⟩ => do
    let (resolved, refs) ← interpolatePayload eval depth (scopes ++ outer) ty payload
    return (resolved, distinct refs)
termination_by structural x => x

def interpolatePayload (eval : Nat → Object → Interpolated) (depth : Nat) (scopes : List Scope) (ty : Ty) :
    Payload → Interpolated
  | .scalar s => .ok (.ofPayload ty (.scalar s), [])
  | .template text => resolveTemplate d eval depth scopes ty text
  | .list elements => do
    let (resolved, refs) ← interpolateElements eval depth scopes elements
    return (.ofPayload ty (.list resolved), refs)
  | .map pairs => do
    let (resolved, refs) ← interpolatePairs eval depth scopes pairs
    return (.ofPayload ty (.map resolved), refs)
  | .struct fields => do
    let (resolved, refs) ← interpolateFields eval depth (structScopes fields scopes) fields
    return (.ofPayload ty (.struct resolved), refs)
  | .typed inner => do
    let (resolved, refs) ← interpolateIn eval depth scopes inner
    return (.ofPayload ty (.typed resolved), refs)
  | .untyped draft => settleChoice d (eval depth) scopes ty draft ty.alternatives
termination_by structural x => x

def interpolateElements (eval : Nat → Object → Interpolated) (depth : Nat) (scopes : List Scope) :
    List Object → Except Error (List Object × List Ref)
  | [] => .ok ([], [])
  | o :: rest => do
    let (resolved, refs) ← interpolateIn eval depth scopes o
    let (others, otherRefs) ← interpolateElements eval depth scopes rest
    return (resolved :: others, refs ++ otherRefs)
termination_by structural x => x

def interpolatePairs (eval : Nat → Object → Interpolated) (depth : Nat) (scopes : List Scope) :
    List (Object × Object) → Except Error (List (Object × Object) × List Ref)
  | [] => .ok ([], [])
  | (k, v) :: rest => do
    let (key, keyRefs) ← interpolateIn eval depth scopes k
    let (value, valueRefs) ← interpolateIn eval depth scopes v
    let (others, otherRefs) ← interpolatePairs eval depth scopes rest
    return ((key, value) :: others, keyRefs ++ valueRefs ++ otherRefs)
termination_by structural x => x

def interpolateFields (eval : Nat → Object → Interpolated) (depth : Nat) (scopes : List Scope) :
    List (String × Option Object) → Except Error (List (String × Option Object) × List Ref)
  | [] => .ok ([], [])
  | (name, none) :: rest => do
    let (others, otherRefs) ← interpolateFields eval depth scopes rest
    return ((name, none) :: others, otherRefs)
  | (name, some o) :: rest => do
    let (resolved, refs) ← interpolateIn eval depth scopes o
    let (others, otherRefs) ← interpolateFields eval depth scopes rest
    return ((name, some resolved) :: others, refs ++ otherRefs)
termination_by structural x => x

end

/-- Interpolates an object within a budget, at a depth of renders. -/
def interpolateWithin : Nat → Nat → Object → Interpolated
  | 0, _, _ => .error .exhausted
  | budget + 1, depth, o => interpolateIn d (interpolateWithin budget) depth [] o

/-- The budget of an evaluation. Only a type whose default values never come to an end can use it up. -/
def budget : Nat := 10000

/-! ## Lookup and interpolation -/

def interpolate (o : Object) : Interpolated := interpolateWithin d budget 0 o

/-- What an object comes to when it is compared with another one. It agrees with `snapshotBy`, except that it has no
way to fail: where an evaluation never ends, the comparison would not return at all, and `snapshotBy` fails, the object
is taken here as it stands. -/
def snapshot (o : Object) : Value :=
  match o.interpolate d with
  | .ok (resolved, _) => resolved.toValue
  | .error _ => o.toValue

def find (o : Object) (r : Ref) : Except Error Object :=
  o.findBy d (snapshotBy (interpolate d)) r

/-- The text of an object after interpolation. -/
def render (o : Object) : Except Error String :=
  (o.interpolate d).map fun (resolved, _) => resolved.toString

/-- The plain data in an object, all of whose references must be bound. -/
def get (o : Object) : Except Error Value := do
  let (resolved, refs) ← o.interpolate d
  if refs.isEmpty then return resolved.toValue
  else throw (Error.unresolved (refs.map Ref.placeholder))

end Object

/-- What a reference stands for in an environment. -/
def Environment.find (e : Environment) (r : Ref) : Except Error Binding :=
  e.findBy d (Object.snapshotBy (Object.interpolate d)) r

def Scope.find (s : Scope) (r : Ref) : Except Error Binding :=
  s.findBy d (Object.snapshotBy (Object.interpolate d)) r

/-- The text of what a reference stands for. -/
def Binding.render (b : Binding) : Except Error String :=
  match b with
  | text s => .ok s
  | object o => o.render d

/-- The text that the first of several scopes which knows a reference has for it. -/
def lookup (scopes : List Scope) : Template.Lookup := lookupBy d (Object.interpolateWithin d Object.budget) 0 scopes

end

end TypedTemplate
