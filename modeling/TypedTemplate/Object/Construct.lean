import TypedTemplate.Template.Basic
import TypedTemplate.Ty.Coerce
import TypedTemplate.Ty.Descriptor

/-!
# Construction

Making typed objects from inputs. An object that is of the type already is taken as it is. Scalars are converted,
unless they hold placeholders; elements, values and fields are constructed in turn; a choice keeps its input
until something is asked of it.
-/

namespace TypedTemplate.Ty

variable (d : Declarations)

def shapeError (t : Ty) (shown : String) : Error :=
  let failure := Error.typeCoercion shown t.name
  match t with
  | list _ => failure.withCause s!"{t.name} expects a sequence"
  | map .. => failure.withCause s!"{t.name} expects a mapping or a sequence of pairs"
  | struct .. => failure.withCause s!"{t.name} expects a mapping of field values"
  | _ => failure

/-- An object of a scalar type. A text with placeholders is kept, if they are well formed. -/
def constructScalar (t : Ty) (s : Scalar) : Except Error Object :=
  match s with
  | .string text =>
    if hasPlaceholder text then do
      let _ ← Fragment.split false text
      return .ofPayload t (.template text)
    else do
      return .ofPayload t (.scalar (← t.coerce (.string text)))
  | s => do return .ofPayload t (.scalar (← t.coerce s))

/-- The fields of a struct before anything is assigned to them: those with defaults have them. -/
def defaults (fields : List (String × Field)) : List (String × Option Object) :=
  fields.map fun (name, f) => (name, f.default)

def arePairs (items : List Input) : Bool :=
  items.all fun
    | .draft (.sequence [_, _]) => true
    | _ => false

/-- An object that has a type already, as an object of a type: it must be of that type or of one of the alternatives
of a choice. -/
def constructTyped (t : Ty) (o : Object) : Except Error Object :=
  if o.ty.same d t then .ok o
  else
    match t with
    | choice name alternatives =>
      if alternatives.any (o.ty.same d) then .ok (.ofPayload t (.typed o))
      else
        .error <| (Error.typeCoercion o.toString t.name).withCause
          s!"{o.typeName} is not one of the alternatives of {name}"
    | t => .error (t.shapeError o.toString)

def fieldName (t : Ty) (key : Input) : Except Error String :=
  match key with
  | .draft (.scalar (.string name)) => .ok name
  | key => .error (Error.invalidValue s!"{t.name} field names must be strings, got {key.toString}")

mutual

/-- An object of a type, made from an input. -/
def construct (t : Ty) : Input → Except Error Object
  | .typed o => t.constructTyped d o
  | .draft draft => constructDraft t draft

def constructDraft (t : Ty) : Draft → Except Error Object
  | .empty =>
    match t with
    | choice .. => .ok (.ofPayload t (.untyped .empty))
    | t => .error (t.shapeError "Empty")
  | .scalar s =>
    match t with
    | choice .. => .ok (.ofPayload t (.untyped (.scalar s)))
    | list _ | map .. | struct .. => .error (t.shapeError s.toString)
    | t => t.constructScalar s
  | .sequence items =>
    let shown := (Draft.sequence items).toString
    match t with
    | choice .. => .ok (.ofPayload t (.untyped (.sequence items)))
    | list element => do return .ofPayload t (.list (← constructElements element 0 items))
    | map key value =>
      if arePairs items then do return .ofPayload t (.map (← constructItems key value items))
      else .error (t.shapeError shown)
    | t => .error (t.shapeError shown)
  | .pairs pairs =>
    let shown := (Draft.pairs pairs).toString
    match t with
    | choice .. => .ok (.ofPayload t (.untyped (.pairs pairs)))
    | map key value => do return .ofPayload t (.map (← constructPairs key value pairs))
    | struct id name => do
      let fields := d.fields id
      return .ofPayload t (.struct (← assign (struct id name) fields (defaults fields) pairs))
    | t => .error (t.shapeError shown)

def constructElements (element : Ty) (i : Nat) : List Input → Except Error (List Object)
  | [] => .ok []
  | item :: rest => do
    let o ← atPath s!"[{i}]" (construct element item)
    let os ← constructElements element (i + 1) rest
    return o :: os

def constructPairs (key value : Ty) : List (Input × Input) → Except Error (List (Object × Object))
  | [] => .ok []
  | (k, v) :: rest => do
    let k ← construct key k
    let v ← atPath s!"[{k.toString}]" (construct value v)
    let pairs ← constructPairs key value rest
    return (k, v) :: pairs

/-- The pairs of a map that is given as a sequence of sequences of two. -/
def constructItems (key value : Ty) : List Input → Except Error (List (Object × Object))
  | .draft (.sequence [k, v]) :: rest => do
    let k ← construct key k
    let v ← atPath s!"[{k.toString}]" (construct value v)
    let pairs ← constructItems key value rest
    return (k, v) :: pairs
  | _ => .ok []

/-- Assigns inputs to the fields of a struct, one after the other. The empty input clears a field. -/
def assign (t : Ty) (declared : List (String × Field)) (fields : List (String × Option Object)) :
    List (Input × Input) → Except Error (List (String × Option Object))
  | [] => .ok fields
  | (key, .draft .empty) :: rest => do
    let name ← t.fieldName key
    match Entries.find? name declared with
    | none => .error (Error.unknownField name t.name)
    | some _ => assign t declared (Entries.insert name none fields) rest
  | (key, input) :: rest => do
    let name ← t.fieldName key
    match Entries.find? name declared with
    | none => .error (Error.unknownField name t.name)
    | some f => do
      let o ← atPath name (construct f.ty input)
      assign t declared (Entries.insert name (some o) fields) rest

end

end TypedTemplate.Ty
