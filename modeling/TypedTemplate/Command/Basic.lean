/-!
# Commands

What can be asked for on the command line, and what comes of it.
-/

namespace TypedTemplate

/-- What bindings are taken from: files and single texts, the later ones of which win. -/
structure BindingSources where
  files : List String := []
  texts : List String := []
  deriving Repr

/-- What an object is built from. -/
structure ObjectSources where
  files : List String
  schema : String
  typeName : Option String := none
  bindings : BindingSources := {}
  strict : Bool := false
  deriving Repr

inductive Command where
  | check (sources : ObjectSources) (format : String) (quiet : Bool)
  | interpolate (sources : ObjectSources) (format : String)
  | resolve (template : String) (bindings : BindingSources)
  | validateSchema (file : String)
  | listTypes (file : String)
  deriving Repr

/-- What a command prints, and the number that it ends with: zero for success, one for a failure of what it was given,
and two if it could not be carried out. -/
structure Outcome where
  exit : Nat
  stdout : String := ""
  stderr : String := ""
  deriving DecidableEq, Repr

namespace BindingSources

def paths (b : BindingSources) : List String := b.files

end BindingSources

namespace ObjectSources

def paths (s : ObjectSources) : List String := s.schema :: s.files ++ s.bindings.paths

end ObjectSources

namespace Command

def paths : Command → List String
  | check sources _ _ => sources.paths
  | interpolate sources _ => sources.paths
  | resolve _ bindings => bindings.paths
  | validateSchema file => [file]
  | listTypes file => [file]

end Command

end TypedTemplate
