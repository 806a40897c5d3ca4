import TypedTemplate.Object.Interpolate

/-!
# Structs and choices

Changing and reading the fields of a struct, and taking the value out of a choice.
-/

namespace TypedTemplate.Object

variable (d : Declarations)

/-- The fields of a struct object together with those that its type declares. -/
def structFields (o : Object) : Except Error (List (String × Option Object) × List (String × Field)) :=
  match o.payload, o.ty with
  | .struct fields, .struct id _ => .ok (fields, d.fields id)
  | _, _ => .error (Error.invalidValue s!"{o.typeName} is not a struct")

/-- The object with some of its fields set anew, by the rules of construction. Its scopes stay. -/
def update (o : Object) (input : Input) : Except Error Object := do
  let (fields, declared) ← o.structFields d
  match input with
  | .draft (.pairs pairs) => return { o with payload := .struct (← o.ty.assign d declared fields pairs) }
  | input => throw (o.ty.shapeError input.toString)

/-- The value of a field, interpolated in its struct; none if the field is empty. -/
def field (o : Object) (name : String) : Except Error (Option Object) := do
  let (fields, declared) ← o.structFields d
  if !Entries.contains name declared then throw (Error.unknownField name o.typeName)
  match Entries.find? name fields with
  | some (some value) =>
    let (resolved, _) ← (value.inScopeAll (structScopes fields o.scopes)).interpolate d
    return some resolved
  | _ => return none

def has (o : Object) (name : String) : Bool :=
  match o.payload with
  | .struct fields => (Entries.find? name fields).any Option.isSome
  | _ => false

def firstAlternative (draft : Draft) : List Ty → Option Object
  | [] => none
  | t :: rest =>
    match t.constructDraft d draft with
    | .ok o => some o
    | .error _ => firstAlternative draft rest

/-- The interpolated value of a choice, as an object of the alternative's type; any other object is itself. -/
def unwrap (o : Object) : Except Error Object :=
  match o.payload with
  | .typed _ | .untyped _ => do
    let (resolved, _) ← o.interpolate d
    match resolved.payload with
    | .typed inner => return inner
    | .untyped draft =>
      match firstAlternative d draft o.ty.alternatives with
      | some candidate => return candidate
      | none => throw (Error.typeCoercion draft.toString o.typeName)
    | _ => return resolved
  | _ => .ok o

end TypedTemplate.Object
