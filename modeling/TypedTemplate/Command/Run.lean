import TypedTemplate.Command.Arguments
import TypedTemplate.Environment
import TypedTemplate.Json.Printer
import TypedTemplate.Object.Check
import TypedTemplate.Object.Load
import TypedTemplate.Object.Struct
import TypedTemplate.Registry.Load
import TypedTemplate.Yaml.Printer

/-!
# Carrying out commands

What a command prints, given the files. What prevents a command from being carried out at all is told apart from
a failure of the object that it is about.
-/

namespace TypedTemplate.Command

/-- A step that may prevent a command from being carried out, in words. -/
abbrev Loading := Except String

def named {α : Type} (what : String) : Except Error α → Loading α
  | .ok a => .ok a
  | .error e => .error s!"{what}: {e.message}"

/-! ## Loading -/

variable (files : Files)

/-- Reads a text in the format that the path of its file tells: JSON, or else YAML. -/
def parseAt (path text : String) : Except Error Value :=
  match Path.extension? path with
  | some "json" => Json.parse text
  | _ => Yaml.parse text

def readDocument (path : String) : Loading Value :=
  match files path with
  | .error reason => .error s!"Failed to read {path}: {reason}"
  | .ok text => named s!"Failed to load {path}" (parseAt path text)

def loadValues : List String → Loading Value
  | [] => .error "No value files specified"
  | path :: rest => do
    let first ← readDocument files path
    rest.foldlM (fun v path => do return v.merge (← readDocument files path)) first

def loadType (registry : Registry) (path : String) (name : Option String) : Loading (Ty × Declarations) := do
  let failed := s!"Failed to load schema {path}"
  let descriptor ← named failed (Descriptor.ofFile files path)
  match name with
  | none =>
    let (result, dict) := (ExceptT.run (registry.reify descriptor)).run {}
    return ((← named failed result).ty, dict.declarations)
  | some name =>
    let (result, dict) := (ExceptT.run (registry.load descriptor)).run {}
    let known ← named failed result
    match Entries.find? name known with
    | some h => return (h.ty, dict.declarations)
    | none =>
      let names := String.intercalate ", " (Entries.keys known)
      throw s!"Type '{name}' is not defined in {path} (known types: {names})"

/-- The reference and the text of a binding, apart by its first equals sign. -/
def parseBinding (binding : String) : Loading (Ref × String) :=
  let cs := binding.toList
  match cs.dropWhile (· ≠ '=') with
  | [] => .error s!"Invalid binding '{binding}': expected key=value"
  | _ :: value => do
    let key := String.ofList (Text.trimBlank (cs.takeWhile (· ≠ '=')))
    let r ← named s!"Invalid binding '{binding}'" (Ref.parse key)
    return (r, String.ofList value)

def loadEnvironment (path : String) : Loading Environment := do
  named s!"Failed to load environment {path}" (Environment.ofValue (← readDocument files path))

/-- The scopes of several bindings: one environment for each file, and one for all texts. -/
def loadScopes (sources : BindingSources) : Loading (List Scope) := do
  let environments ← sources.files.mapM (loadEnvironment files)
  let scopes := environments.map Scope.environment
  if sources.texts.isEmpty then return scopes
  else
    let entries ← sources.texts.mapM fun b => do
      let (r, text) ← parseBinding b
      return (r.address, Entry.value (.string text))
    match Environment.ofEntries entries with
    | .ok e => return scopes ++ [.environment e]
    | .error e => throw e.message

/-- The object of several sources and the structs that are declared; the inner failure is one of its construction. -/
def loadObject (registry : Registry) (sources : ObjectSources) :
    Loading (Declarations × Except Error Object) := do
  let (ty, d) ← loadType files registry sources.schema sources.typeName
  let v ← loadValues files sources.files
  let scopes ← loadScopes files sources.bindings
  return (d, (ty.load d sources.strict v).map (·.bindAll scopes))

/-! ## Outcomes -/

/-- The outcome of a command that could not be carried out. -/
def prevented (reason : String) : Outcome := { exit := 2, stderr := reason ++ "\n" }

def failed (message : String) : Outcome := { exit := 1, stderr := s!"Error: {message}\n" }

def valid (files : List String) (format : String) (quiet : Bool) : Outcome :=
  let line :=
    if quiet then ""
    else if format = "json" then "\x7b\"valid\": true\x7d\n"
    else "✓ " ++ String.intercalate ", " files ++ " is valid\n"
  { exit := 0, stdout := line }

def invalid (format message : String) : Outcome :=
  if format = "json" then
    let report : Value := .mapping [("error", .string message), ("valid", .bool false)]
    { exit := 1, stdout := Json.pretty report ++ "\n" }
  else
    { exit := 1, stderr := s!"✗ Validation failed\n\n{message}\n" }

def show? (format : String) (v : Value) : Loading String :=
  if format = "json" then .ok (Json.pretty v ++ "\n")
  else if format = "yaml" ∨ format = "yml" then .ok (Yaml.document v)
  else .error s!"Unsupported format: {format}. Use yaml or json."

def unboundLine (refs : List Ref) : String :=
  if refs.isEmpty then ""
  else "! Unresolved references: " ++ String.intercalate " " (refs.map Ref.placeholder) ++ "\n"

/-! ## Commands -/

variable (registry : Registry)

def runCheck (sources : ObjectSources) (format : String) (quiet : Bool) : Outcome :=
  match loadObject files registry sources with
  | .error reason => prevented reason
  | .ok (_, .error e) => invalid format e.message
  | .ok (d, .ok o) =>
    let c := o.check d
    if c.isOk then valid sources.files format quiet else invalid format c.message

def runInterpolate (sources : ObjectSources) (format : String) : Outcome :=
  match loadObject files registry sources with
  | .error reason => prevented reason
  | .ok (_, .error e) => failed e.message
  | .ok (d, .ok o) =>
    match o.interpolate d with
    | .error e => failed e.message
    | .ok (resolved, refs) =>
      match show? format resolved.toValue with
      | .error reason => failed reason
      | .ok shown => { exit := 0, stdout := shown, stderr := unboundLine refs }

def runResolve (template : String) (bindings : BindingSources) : Outcome :=
  match loadScopes files bindings with
  | .error reason => prevented reason
  | .ok scopes =>
    let result := do
      let o ← Ty.string.construct {} (Input.ofText template)
      (o.bindAll scopes).interpolate {}
    match result with
    | .error e => failed e.message
    | .ok (resolved, refs) => { exit := 0, stdout := resolved.toString ++ "\n", stderr := unboundLine refs }

def runValidateSchema (file : String) : Outcome :=
  match readDocument files file with
  | .error reason => prevented reason
  | .ok v =>
    match SchemaDocument.descriptor.mismatches v with
    | [] =>
      match ((ExceptT.run (registry.reify v)).run {}).1 with
      | .ok h => { exit := 0, stdout := s!"✓ {file}: valid type descriptor ({h.ty.name})\n" }
      | .error e => { exit := 1, stderr := s!"✗ {file}: {e.message}\n" }
    | ms =>
      let lines := String.join (ms.map fun m => s!"  {m.toString}\n")
      { exit := 1, stderr := s!"✗ {file}: invalid type descriptor\n\n{lines}" }

def runListTypes (file : String) : Outcome :=
  let result := do
    let descriptor ← Descriptor.ofFile files file
    ((ExceptT.run (registry.load descriptor)).run {}).1
  match result with
  | .error e => prevented e.message
  | .ok known =>
    { exit := 0, stdout := String.join (known.map fun (name, h) => s!"{name} ({h.ty.tag})\n") }

def run : Command → Outcome
  | .check sources format quiet => runCheck files registry sources format quiet
  | .interpolate sources format => runInterpolate files registry sources format
  | .resolve template bindings => runResolve files template bindings
  | .validateSchema file => runValidateSchema files registry file
  | .listTypes file => runListTypes files registry file

def usage : String :=
  "Usage:\n"
    ++ "  check <FILES>... --schema <SCHEMA> [--type <NAME>] [--env <FILE>] [--bind <KEY=VALUE>] [--strict]\n"
    ++ "    [--format <text|json>] [--quiet]\n"
    ++ "  interpolate <FILES>... --schema <SCHEMA> [--type <NAME>] [--env <FILE>] [--bind <KEY=VALUE>]\n"
    ++ "    [--strict] [--format <yaml|json>]\n"
    ++ "  resolve <TEMPLATE> [--env <FILE>] [--bind <KEY=VALUE>]\n"
    ++ "  schema validate <FILE>\n"
    ++ "  schema types <FILE>\n"

def explained : UsageError → Outcome
  | .help => { exit := 0, stdout := usage }
  | .malformed => { exit := 2, stderr := usage }

def runArguments (args : List String) : Outcome :=
  match ofArguments args with
  | .ok c => run files registry c
  | .error e => explained e

end TypedTemplate.Command
