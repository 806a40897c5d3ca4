import TypedTemplate.Registry.Basic

/-!
# Reading descriptors

Making the type that a descriptor describes. A struct is known by its name from the moment that the reading of its
fields starts, so that its fields can mention it.
-/

namespace TypedTemplate

namespace Descriptor

/-! ## The parts of a descriptor -/

def countError (tag : String) (expected got : Nat) : Error :=
  Error.invalidDescriptor s!"{tag} takes {expected} parameter(s), got {got}"

def expectName (tag : String) (v : Value) : Except Error String :=
  match v with
  | .scalar (.string s) => .ok s
  | v => .error (Error.invalidDescriptor s!"{tag} expects a name, got {v.toString}")

def sequenceError (tag : String) (v : Value) : Error :=
  Error.invalidDescriptor s!"{tag} expects a sequence, got {v.toString}"

def expectSequence (tag : String) (v : Value) : Except Error (List Value) :=
  match v with
  | .sequence elements => .ok elements
  | v => .error (sequenceError tag v)

/-- The error of a field that is no sequence of a name and a sequence of four. -/
def fieldError (v : Value) : Error :=
  match v with
  | .sequence [attr, signature] =>
    match expectName "Struct field" attr with
    | .error e => e
    | .ok _ =>
      match signature with
      | .sequence parts => countError "Struct field signature" 4 parts.length
      | v => sequenceError "Struct" v
  | .sequence parts => countError "Struct field" 2 parts.length
  | v => sequenceError "Struct" v

def expectFlags (struct attr : String) (required empty : Value) : Except Error (Bool × Bool) :=
  match required, empty with
  | .scalar (.bool r), .scalar (.bool e) => .ok (r, e)
  | _, _ =>
    .error (Error.invalidDescriptor s!"field {attr} of {struct} needs boolean required/empty flags")

/-- The name in a descriptor that mentions a struct by it alone. -/
def shortForm? (tag : String) (params : List Value) : Option String :=
  match params with
  | [.scalar (.string name)] => if tag = "Struct" then some name else none
  | _ => none

def shapeError (v : Value) : Error :=
  match v with
  | .sequence _ => Error.invalidDescriptor s!"descriptor must start with a factory tag: {v.toString}"
  | v => Error.invalidDescriptor s!"expected a sequence, got {v.toString}"

end Descriptor

namespace Registry

open Descriptor

variable (r : Registry)

def recorded (descriptor : Value) (make : Making Handle) : Making Handle := do
  let h ← make
  modify (·.record descriptor h)
  return h

/-- What is remembered for a descriptor, or else what is made from it. -/
def remembered (descriptor : Value) (make : Making Handle) : Making Handle := do
  match (← get).made? descriptor with
  | some h => return h
  | none => make

def declaredStruct (name : String) : Making Handle := do
  match (← get).structure? name with
  | some h => return h
  | none => throw (Error.invalidDescriptor s!"Struct {name} is referenced before it is defined")

def makeDefault (attr : String) (t : Ty) (empty : Bool) (v : Value) : Making (Option Object) := do
  if empty then return none
  else return some (← atPath attr (t.construct (← get).declarations v.toInput))

mutual

/-- Makes the type that a descriptor describes. -/
def reify : Value → Making Handle
  | .scalar s => remembered (.scalar s) (throw (shapeError (.scalar s)))
  | .mapping entries => remembered (.mapping entries) (throw (shapeError (.mapping entries)))
  | .sequence [] => remembered (.sequence []) (throw (shapeError (.sequence [])))
  | .sequence (head :: params) =>
    remembered (.sequence (head :: params)) <|
      match head with
      | .scalar (.string tag) => makeTagged (.sequence (head :: params)) tag (reifyParams params) params
      | _ => throw (shapeError (.sequence (head :: params)))
termination_by structural x => x

/-- Makes a type from its tag and the parameters that follow, which are also given with the making of the types that
they describe. -/
def makeTagged (descriptor : Value) (tag : String) (makings : List (Value × Making Handle))
    (params : List Value) : Making Handle :=
  match shortForm? tag params with
  | some name => declaredStruct name
  | none =>
    match r.find? tag with
    | none => throw (Error.unknownFactory tag)
    | some f => recorded descriptor <|
      match f, params with
      | .scalar t, [] => Making.fresh t
      | .scalar t, ps => throw (countError t.tag 0 ps.length)
      | .enum, [name, members] => do
        let values ← (← expectSequence "Enum" members).mapM fun v => liftM (expectName "Enum" v)
        Making.fresh (.enum (← expectName "Enum" name) values)
      | .enum, ps => throw (countError "Enum" 2 ps.length)
      | .list, [element] => do Making.fresh (.list (← reify element).ty)
      | .list, ps => throw (countError "List" 1 ps.length)
      | .map, [key, value] => do
        let key ← reify key
        let value ← reify value
        Making.fresh (.map key.ty value.ty)
      | .map, ps => throw (countError "Map" 2 ps.length)
      | .struct, [name, fields] => do
        let name ← expectName "Struct" name
        let h ← Making.freshStruct name
        modify (·.declareStruct name h)
        match fields with
        | .sequence fields =>
          let declared ← reifyFields name fields
          modify (·.finishStruct h declared)
          return h
        | v => throw (sequenceError "Struct" v)
      | .struct, ps => throw (countError "Struct" 2 ps.length)
      | .choice, [name, alternatives] =>
        match alternatives with
        | .sequence alternatives => do
          let types ← reifyEach alternatives
          Making.fresh (.choice (← expectName "Choice" name) types)
        | v => throw (sequenceError "Choice" v)
      | .choice, ps => throw (countError "Choice" 2 ps.length)
      | .extension create, _ => create makings
termination_by structural params

/-- The parameters of an extension, each with the making of the type that it describes. -/
def reifyParams : List Value → List (Value × Making Handle)
  | [] => []
  | v :: rest => (v, reify v) :: reifyParams rest
termination_by structural x => x

/-- Makes the types of several descriptors, one after the other. -/
def reifyEach : List Value → Making (List Ty)
  | [] => return []
  | v :: rest => do
    let h ← reify v
    let types ← reifyEach rest
    return h.ty :: types
termination_by structural x => x

def reifyFields (struct : String) : List Value → Making (List (String × Field))
  | [] => return []
  | .sequence [attr, .sequence [required, default, empty, type]] :: rest => do
    let attr ← expectName "Struct field" attr
    let (required, empty) ← expectFlags struct attr required empty
    let h ← reify type
    let default ← makeDefault attr h.ty empty default
    let fields ← reifyFields struct rest
    return (attr, ⟨h.ty, required, default⟩) :: fields
  | v :: _ => throw (fieldError v)
termination_by structural x => x

end

end Registry

end TypedTemplate
