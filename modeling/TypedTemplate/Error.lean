import TypedTemplate.Text.Quoted

/-!
# Errors

An error names its cause as an `ErrorKind`, and may carry the place where it arose, an underlying cause in
words, and advice. The wording is `ErrorKind.message` and `Error.message`; a lookup that fails in one scope is
told apart from every other error by `Error.isLookup`.
-/

namespace TypedTemplate

inductive ErrorKind where
  | invalidRef (address : String)
  | parse
  | notFound (component container : String)
  | naming (component container : String)
  | unnamable (container : String)
  | typeCoercion (value target : String)
  | uninterpolatable
  | unresolved (refs : List String)
  | invalidValue
  | unknownField (field container : String)
  | validation
  | unknownFactory (tag : String)
  | alreadyRegistered (tag : String)
  | invalidDescriptor
  | io
  | exhausted
  deriving DecidableEq, Repr

def ErrorKind.message : ErrorKind → String
  | .invalidRef address => "Invalid reference address: " ++ Text.quoted address
  | .parse => "Parse error"
  | .notFound component container => s!"Could not find {component} in {container}"
  | .naming component container => s!"Cannot dereference {container} by {component}"
  | .unnamable container => s!"Object is not indexable: {container}"
  | .typeCoercion value target => s!"Cannot coerce '{value}' to {target}"
  | .uninterpolatable => "Unable to interpolate"
  | .unresolved refs => "Unresolved references: " ++ String.intercalate " " refs
  | .invalidValue => "Invalid value"
  | .unknownField field container => s!"{container} has no field {field}"
  | .validation => "Validation error"
  | .unknownFactory tag => s!"Unknown type factory: {tag}"
  | .alreadyRegistered tag => s!"Type factory '{tag}' is already registered"
  | .invalidDescriptor => "Invalid type descriptor"
  | .io => "I/O error"
  | .exhausted => "Evaluation is nested too deeply"

/-- An error: its kind, the place it concerns, the underlying cause and what to do about it. -/
structure Error where
  kind : ErrorKind
  path : Option String := none
  cause : Option String := none
  help : Option String := none
  deriving DecidableEq, Repr

namespace Error

/-! ## Making errors -/

def invalidRef (address : String) : Error :=
  { kind := .invalidRef address
    help := some "References are dotted identifiers with optional [index] components, e.g. a.b[c].d" }

def parse (cause : String) : Error :=
  { kind := .parse, cause := some cause }

def notFound (component container : String) : Error :=
  { kind := .notFound component container }

def naming (component container : String) : Error :=
  { kind := .naming component container }

def unnamable (container : String) : Error :=
  { kind := .unnamable container }

def typeCoercion (value target : String) : Error :=
  { kind := .typeCoercion value target
    help := some s!"Ensure the value can be converted to {target}" }

def uninterpolatable (cause : String) : Error :=
  { kind := .uninterpolatable
    cause := some cause
    help := some "Break the substitution cycle by removing one of the references" }

def unresolved (refs : List String) : Error :=
  { kind := .unresolved refs
    help := some "Bind the missing references before requesting a value" }

def invalidValue (cause : String) : Error :=
  { kind := .invalidValue, cause := some cause }

def unknownField (field container : String) : Error :=
  { kind := .unknownField field container }

/-- A mismatch at a place; the root of a document is no place worth naming. -/
def validation (path cause : String) : Error :=
  { kind := .validation
    path := if path = "" ∨ path = "<root>" then none else some path
    cause := some cause
    help := some "Fix the value to match the schema requirements" }

def unknownFactory (tag : String) : Error :=
  { kind := .unknownFactory tag
    help := some s!"Register a factory for '{tag}' or check for typos" }

def alreadyRegistered (tag : String) : Error :=
  { kind := .alreadyRegistered tag
    help := some s!"Use register_with_force(..., true) to override the '{tag}' factory" }

def invalidDescriptor (cause : String) : Error :=
  { kind := .invalidDescriptor, cause := some cause }

def io (path cause : String) : Error :=
  { kind := .io, path := some path, cause := some cause }

def exhausted : Error :=
  { kind := .exhausted }

/-! ## Adding context -/

def withPath (e : Error) (path : String) : Error :=
  { e with path := some path }

def withHelp (e : Error) (help : String) : Error :=
  { e with help := some help }

def withCause (e : Error) (cause : String) : Error :=
  { e with cause := some cause }

/-! ## Reading errors -/

/-- The failures that a search through several scopes passes over. -/
def isLookup (e : Error) : Bool :=
  match e.kind with
  | .notFound .. | .naming .. | .unnamable .. => true
  | _ => false

def summary (e : Error) : String :=
  match e.cause with
  | some cause => s!"{e.kind.message}: {cause}"
  | none => e.kind.message

private def contextLine (label : String) : Option String → String
  | some text => "\n  " ++ label ++ text
  | none => ""

/-- The whole message: the kind, then the place, the cause and the advice on lines of their own. -/
def message (e : Error) : String :=
  e.kind.message ++ contextLine "Path: " e.path ++ contextLine "" e.cause ++ contextLine "Help: " e.help

end Error

def atPath {α : Type} (path : String) : Except Error α → Except Error α
  | .ok a => .ok a
  | .error e => .error (e.withPath path)

end TypedTemplate
