import TypedTemplate.Ref.Basic
import TypedTemplate.Ty.Basic
import TypedTemplate.Value.Basic

/-!
# Objects

A typed object is a payload that fits its type, together with the scopes against which the templates inside
it are resolved. Scopes are environments, which bind references to texts and objects, and objects themselves.
A choice that has not settled for one of its alternatives holds a draft: data that has no type yet.
-/

namespace TypedTemplate

mutual

/-- A typed object. The first of its scopes that knows a reference is the one that counts; the provided scopes
are those that it will be given later. -/
structure Object where
  ty : Ty
  payload : Payload
  scopes : List Scope
  provided : List Scope

inductive Payload where
  | scalar (s : Scalar)
  /-- The text of a scalar in which placeholders remain. -/
  | template (text : String)
  | list (elements : List Object)
  | map (pairs : List (Object × Object))
  /-- The fields of a struct in the order of their declaration; some may be empty. -/
  | struct (fields : List (String × Option Object))
  /-- A choice that has settled for an alternative. -/
  | typed (inner : Object)
  /-- A choice that has not. -/
  | untyped (draft : Draft)

/-- What references are resolved against. -/
inductive Scope where
  | environment (e : Environment)
  | object (o : Object)

/-- A table of bindings, each reference bound at most once. -/
structure Environment where
  table : List (Ref × Binding)

/-- What a reference stands for. -/
inductive Binding where
  | text (s : String)
  | object (o : Object)

/-- What objects are made from: objects that have a type already, and drafts. -/
inductive Input where
  | typed (o : Object)
  | draft (d : Draft)

/-- Data without a type, which may hold typed objects inside. -/
inductive Draft where
  | empty
  | scalar (s : Scalar)
  | sequence (items : List Input)
  | pairs (pairs : List (Input × Input))

end

instance : Inhabited Object := ⟨⟨.string, .scalar (.string ""), [], []⟩⟩

namespace Object

def ofPayload (ty : Ty) (payload : Payload) : Object := ⟨ty, payload, [], []⟩

def typeName (o : Object) : String := o.ty.name

/-! ## Scopes -/

/-- Puts scopes before those of the object, the last of them foremost. -/
def bindAll (o : Object) (scopes : List Scope) : Object :=
  { o with scopes := scopes.reverse ++ o.scopes }

def inScopeAll (o : Object) (scopes : List Scope) : Object :=
  { o with scopes := o.scopes ++ scopes }

/-- Declares scopes that the object will be given later. -/
def providedAll (o : Object) (scopes : List Scope) : Object :=
  { o with provided := o.provided ++ scopes }

def isNamable : Object → Bool
  | ⟨ty, payload, _, _⟩ =>
    match payload with
    | .scalar _ | .template _ => false
    | .list _ | .map _ | .struct _ => true
    | .typed inner => inner.isNamable
    | .untyped _ => ty.isNamable

end Object

/-! ## Plain views -/

mutual

/-- The plain data in an object as it stands; templates appear as their texts. -/
def Object.toValue : Object → Value
  | ⟨_, payload, _, _⟩ => payload.toValue

def Payload.toValue : Payload → Value
  | .scalar s => .scalar s
  | .template text => .string text
  | .list elements => .sequence (elementValues elements)
  | .map pairs => .mapping (Entries.ofList (pairValues pairs))
  | .struct fields => .mapping (fieldValues fields)
  | .typed inner => inner.toValue
  | .untyped draft => draft.toValue

def elementValues : List Object → List Value
  | [] => []
  | o :: rest => o.toValue :: elementValues rest

def pairValues : List (Object × Object) → List (String × Value)
  | [] => []
  | (k, v) :: rest => (k.toString, v.toValue) :: pairValues rest

def fieldValues : List (String × Option Object) → List (String × Value)
  | [] => []
  | (name, some o) :: rest => (name, o.toValue) :: fieldValues rest
  | (_, none) :: rest => fieldValues rest

def Input.toValue : Input → Value
  | .typed o => o.toValue
  | .draft d => d.toValue

def Draft.toValue : Draft → Value
  | .empty => .null
  | .scalar s => .scalar s
  | .sequence items => .sequence (itemValues items)
  | .pairs pairs => .mapping (Entries.ofList (itemPairValues pairs))

def itemValues : List Input → List Value
  | [] => []
  | i :: rest => i.toValue :: itemValues rest

def itemPairValues : List (Input × Input) → List (String × Value)
  | [] => []
  | (k, v) :: rest => (k.toValue.toString, v.toValue) :: itemPairValues rest

/-- The text of an object as it stands: scalars bare, lists, maps and structs behind the name of their type. -/
def Object.toString : Object → String
  | ⟨ty, payload, _, _⟩ =>
    match payload with
    | .scalar s => s.toString
    | .template text => text
    | .list elements => ty.name ++ "(" ++ String.intercalate ", " (elementTexts elements) ++ ")"
    | .map pairs => ty.name ++ "(" ++ String.intercalate ", " (pairTexts pairs) ++ ")"
    | .struct fields => ty.name ++ "(" ++ String.intercalate ", " (fieldTexts fields) ++ ")"
    | .typed inner => inner.toString
    | .untyped .empty => "Empty"
    | .untyped draft => draft.toValue.toString

def elementTexts : List Object → List String
  | [] => []
  | o :: rest => o.toString :: elementTexts rest

def pairTexts : List (Object × Object) → List String
  | [] => []
  | (k, v) :: rest => (k.toString ++ " => " ++ v.toString) :: pairTexts rest

def fieldTexts : List (String × Option Object) → List String
  | [] => []
  | (name, some o) :: rest => (name ++ "=" ++ o.toString) :: fieldTexts rest
  | (_, none) :: rest => fieldTexts rest

end

def Draft.toString : Draft → String
  | .empty => "Empty"
  | d => d.toValue.toString

def Input.toString : Input → String
  | .typed o => o.toString
  | .draft d => d.toString

/-! ## Plain data as input -/

mutual

/-- A plain value as an input; the keys of mappings become texts. -/
def Value.toInput : Value → Input
  | .scalar s => .draft (.scalar s)
  | .sequence elements => .draft (.sequence (elementInputs elements))
  | .mapping entries => .draft (.pairs (entryInputs entries))

def elementInputs : List Value → List Input
  | [] => []
  | v :: rest => v.toInput :: elementInputs rest

def entryInputs : List (String × Value) → List (Input × Input)
  | [] => []
  | (k, v) :: rest => (.draft (.scalar (.string k)), v.toInput) :: entryInputs rest

end

namespace Input

def ofText (text : String) : Input := .draft (.scalar (.string text))

def empty : Input := .draft .empty

end Input

/-! ## Declarations -/

/-- The declared shape of a struct field. -/
structure Field where
  ty : Ty
  required : Bool
  default : Option Object

/-- The struct types there are. Those whose fields have not been declared yet have none. -/
structure Declarations where
  /-- The number for the next type that has to be told apart from all others. -/
  next : StructId := 0
  /-- The fields of the finished struct types, in the order of their declaration. -/
  finished : List (StructId × List (String × Field)) := []

namespace Declarations

instance : Inhabited Declarations := ⟨{}⟩

def fields (d : Declarations) (id : StructId) : List (String × Field) :=
  (Entries.find? id d.finished).getD []

def declare (d : Declarations) (name : String) : Ty × Declarations :=
  (.struct d.next name, { d with next := d.next + 1 })

/-- Declares the fields of a struct type; what has been declared stays. -/
def finish (d : Declarations) (id : StructId) (fields : List (String × Field)) : Declarations :=
  if Entries.contains id d.finished then d else { d with finished := d.finished ++ [(id, fields)] }

end Declarations

/-- The declared fields of a struct type; other types have none. -/
def Ty.fields (d : Declarations) : Ty → List (String × Field)
  | .struct id _ => d.fields id
  | _ => []

end TypedTemplate
