import TypedTemplate.Check
import TypedTemplate.Object.Interpolate

/-!
# Checking objects

An object passes if everything in it can be interpolated, the references that stay unbound are promised by the
scopes provided, and every required field is present. A choice passes if it does as one of its alternatives.
-/

namespace TypedTemplate

variable (d : Declarations)

/-- The outcome of a check within a budget. -/
abbrev Checked := Except Error Check

namespace Object

/-- The check of a scalar: what its interpolation leaves unbound must be provided, all of it. -/
def checkScalar (provided : List Scope) : Interpolated → Checked
  | .ok (_, unbound) =>
    if unbound.all fun r => provided.any (·.provides d r) then .ok .pass
    else .ok (.fail ("Uninterpolated variables: " ++ String.intercalate " " (unbound.map Ref.placeholder)))
  | .error e =>
    if e.kind = .exhausted then .error e else .ok (.fail s!"Unable to interpolate: {e.summary}")

/-- The check of a choice that has not settled: the first alternative that takes its draft and passes. -/
def checkAlternatives (sub : Object → Checked) (see : Object → Object) (t : Ty) (draft : Draft) :
    List Ty → Checked
  | [] =>
    .ok (.fail s!"{t.name} typecheck failed: value {draft.toString} did not match any of its alternatives")
  | alternative :: rest =>
    match alternative.constructDraft d draft with
    | .error _ => checkAlternatives sub see t draft rest
    | .ok candidate => do
      match ← sub (see candidate) with
      | .pass => return .pass
      | .fail _ => checkAlternatives sub see t draft rest

/-- The check of a struct, given those of the fields that are present: its declared fields in their order. -/
def checkDeclared (name : String) (checks : List (String × Checked)) : List (String × Field) → Checked
  | [] => .ok .pass
  | (field, f) :: rest =>
    match Entries.find? field checks with
    | some check => do
      match ← check with
      | .pass => checkDeclared name checks rest
      | .fail message => return .fail s!"{name}[{field}] failed: {message}"
    | none =>
      if f.required then .ok (.fail s!"{name}[{field}] is required.") else checkDeclared name checks rest

mutual

/-- Checks an object that sees further scopes, and is provided with further ones. -/
def checkIn (eval : Nat → Object → Interpolated) (sub : Object → Checked) (outer provided : List Scope) :
    Object → Checked
  | ⟨ty, payload, scopes, own⟩ => checkPayload eval sub (scopes ++ outer) (own ++ provided) ty payload
termination_by structural x => x

def checkPayload (eval : Nat → Object → Interpolated) (sub : Object → Checked) (scopes provided : List Scope)
    (ty : Ty) : Payload → Checked
  | .scalar s => checkScalar d provided (interpolatePayload d eval 0 scopes ty (.scalar s))
  | .template text => checkScalar d provided
    ((interpolatePayload d eval 0 scopes ty (.template text)).map fun (o, refs) => (o, distinct refs))
  | .list elements => checkElements eval sub scopes provided ty elements
  | .map pairs => checkPairs eval sub scopes provided ty pairs
  | .struct fields =>
    match ty with
    | .struct id name =>
      checkDeclared name (checkFields eval sub (structScopes fields scopes) provided fields) (d.fields id)
    | ty => .ok (.fail s!"{ty.name} is not a struct")
  | .typed inner => checkIn eval sub scopes provided inner
  | .untyped draft =>
    checkAlternatives d sub (fun o => (o.inScopeAll scopes).providedAll provided) ty draft ty.alternatives
termination_by structural x => x

def checkElements (eval : Nat → Object → Interpolated) (sub : Object → Checked) (scopes provided : List Scope)
    (ty : Ty) : List Object → Checked
  | [] => .ok .pass
  | o :: rest => do
    match ← checkIn eval sub scopes provided o with
    | .pass => checkElements eval sub scopes provided ty rest
    | .fail message => return .fail s!"Element in {ty.name} failed check: {message}"
termination_by structural x => x

def checkPairs (eval : Nat → Object → Interpolated) (sub : Object → Checked) (scopes provided : List Scope)
    (ty : Ty) : List (Object × Object) → Checked
  | [] => .ok .pass
  | (k, v) :: rest => do
    match ← checkIn eval sub scopes provided k with
    | .pass =>
      match ← checkIn eval sub scopes provided v with
      | .pass => checkPairs eval sub scopes provided ty rest
      | .fail message => return .fail s!"{ty.name}[{k.toString}] value {v.toString} failed check: {message}"
    | .fail message => return .fail s!"{ty.name} key {k.toString} failed check: {message}"
termination_by structural x => x

def checkFields (eval : Nat → Object → Interpolated) (sub : Object → Checked) (scopes provided : List Scope) :
    List (String × Option Object) → List (String × Checked)
  | [] => []
  | (name, some o) :: rest =>
    (name, checkIn eval sub scopes provided o) :: checkFields eval sub scopes provided rest
  | (_, none) :: rest => checkFields eval sub scopes provided rest
termination_by structural x => x

end

def checkWithin : Nat → Object → Checked
  | 0, _ => .error .exhausted
  | budget + 1, o => checkIn d (interpolateWithin d budget) (checkWithin budget) [] [] o

def check (o : Object) : Check :=
  match checkWithin d budget o with
  | .ok c => c
  | .error e => .fail s!"Unable to interpolate: {e.summary}"

end Object

end TypedTemplate
