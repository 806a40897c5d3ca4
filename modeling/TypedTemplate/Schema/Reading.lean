import TypedTemplate.Decimal.Reading
import TypedTemplate.Error
import TypedTemplate.Schema.Basic

/-!
# Reading schemas

Making a schema from the JSON value that it is written as. A document that names no dialect is read by the current
rules, under which `items` is a single schema and a reference stands beside other constraints; by older rules
`items` may be a sequence, and by still older ones a reference stands alone.
-/

namespace TypedTemplate

/-- The rules by which a document is read. -/
structure Dialect where
  allowsTuples : Bool
  refStandsAlone : Bool

namespace Dialect

def current : Dialect := ⟨false, false⟩

/-- The dialects by the address that a document names them with. -/
def known : List (String × Dialect) := [
  ("http://json-schema.org/draft-04/schema", ⟨true, true⟩),
  ("http://json-schema.org/draft-06/schema", ⟨true, true⟩),
  ("http://json-schema.org/draft-07/schema", ⟨true, true⟩),
  ("https://json-schema.org/draft/2019-09/schema", ⟨true, false⟩),
  ("https://json-schema.org/draft/2020-12/schema", current)]

/-- The dialect of a document; none if it names one that is not known. -/
def of? (v : Value) : Option Dialect :=
  match v.mapping?.bind (Entries.find? "$schema") with
  | none => some current
  | some (.scalar (.string address)) =>
    let cs := address.toList
    Entries.find? (String.ofList (if cs.getLast? = some '#' then cs.dropLast else cs)) known
  | some _ => none

end Dialect

namespace Constraint

/-- The place of a constraint among others, by the name that it is written under. -/
def rank : Constraint → Nat
  | ref _ => 0
  | anyOf _ => 1
  | const _ => 2
  | definitions _ => 3
  | enum _ => 4
  | items _ | tuple _ => 5
  | maxItems _ => 6
  | minItems _ => 7
  | not .. => 8
  | type _ => 9

end Constraint

namespace Schema

def limit? : Value → Option Nat
  | .scalar (.integer i) => if 0 ≤ i.toInt then some i.toInt.toNat else none
  | .scalar (.float x) => x.toInt?.bind fun i => if 0 ≤ i then some i.toNat else none
  | _ => none

/-- The kinds of values named by a word, or by several different ones, in the order of messages. -/
def kinds? : Value → Option (List JsonKind)
  | .scalar (.string w) => (JsonKind.ofWord? w).map fun k => [k]
  | .sequence [] => none
  | .sequence words => do
    let kinds ← words.mapM fun w => w.string?.bind JsonKind.ofWord?
    if kinds.eraseDups.length = kinds.length then some (JsonKind.all.filter (kinds.contains ·)) else none
  | _ => none

/-- The constraints of a schema as it takes effect: in order, and a reference alone where it stands alone. -/
def arrange (dialect : Dialect) (constraints : List Constraint) : Schema :=
  let isRef : Constraint → Bool
    | .ref _ => true
    | _ => false
  let isDefinitions : Constraint → Bool
    | .definitions _ => true
    | _ => false
  let effective :=
    if dialect.refStandsAlone && constraints.any isRef then
      constraints.filter fun c => isRef c || isDefinitions c
    else
      constraints
  .all (effective.mergeSort fun a b => a.rank ≤ b.rank)

mutual

/-- The schema that a value is the written form of; none if it is malformed. -/
def read? (dialect : Dialect) : Value → Option Schema
  | .scalar (.bool b) => some (.always b)
  | .mapping entries => (readConstraints? dialect entries).map (arrange dialect)
  | _ => none
termination_by structural v => v

def readAll? (dialect : Dialect) : List Value → Option (List Schema)
  | [] => some []
  | v :: rest => do
    let s ← read? dialect v
    let others ← readAll? dialect rest
    return s :: others
termination_by structural v => v

def readNamed? (dialect : Dialect) : List (String × Value) → Option (List (String × Schema))
  | [] => some []
  | (k, v) :: rest => do
    let s ← read? dialect v
    let others ← readNamed? dialect rest
    return (k, s) :: others
termination_by structural v => v

/-- The constraint that an entry stands for, if it is one that counts; none at all if it is malformed. -/
def readConstraint? (dialect : Dialect) (key : String) : Value → Option (Option Constraint)
  | .sequence vs =>
    match key with
    | "anyOf" => if vs.isEmpty then none else (readAll? dialect vs).map fun ss => some (.anyOf ss)
    | "const" => some (some (.const (.sequence vs)))
    | "enum" => some (some (.enum vs))
    | "items" => if dialect.allowsTuples then (readAll? dialect vs).map fun ss => some (.tuple ss) else none
    | "type" => (kinds? (.sequence vs)).map fun ks => some (.type ks)
    | "$ref" | "definitions" | "$defs" | "maxItems" | "minItems" | "not" => none
    | _ => some none
  | .mapping entries =>
    match key with
    | "const" => some (some (.const (.mapping entries)))
    | "items" => (readConstraints? dialect entries).map fun cs => some (.items (arrange dialect cs))
    | "not" =>
      (readConstraints? dialect entries).map fun cs => some (.not (.mapping entries) (arrange dialect cs))
    | "definitions" | "$defs" => (readNamed? dialect entries).map fun ss => some (.definitions ss)
    | "$ref" | "anyOf" | "enum" | "maxItems" | "minItems" | "type" => none
    | _ => some none
  | .scalar s =>
    match key, s with
    | "$ref", .string target => some (some (.ref target))
    | "const", s => some (some (.const (.scalar s)))
    | "items", .bool b => some (some (.items (.always b)))
    | "not", .bool b => some (some (.not (.scalar (.bool b)) (.always b)))
    | "maxItems", s => (limit? (.scalar s)).map fun n => some (.maxItems n)
    | "minItems", s => (limit? (.scalar s)).map fun n => some (.minItems n)
    | "type", s => (kinds? (.scalar s)).map fun ks => some (.type ks)
    | "$ref", _ | "anyOf", _ | "definitions", _ | "$defs", _ | "enum", _ | "items", _ | "not", _ => none
    | _, _ => some none
termination_by structural v => v

def readConstraints? (dialect : Dialect) : List (String × Value) → Option (List Constraint)
  | [] => some []
  | (k, v) :: rest => do
    let c ← readConstraint? dialect k v
    let others ← readConstraints? dialect rest
    return c.toList ++ others
termination_by structural v => v

end

mutual

def refs : Schema → List String
  | .always _ => []
  | .all constraints => refsOfConstraints constraints

def refsOfConstraint : Constraint → List String
  | .ref target => [target]
  | .anyOf alternatives => refsOfAll alternatives
  | .definitions named => refsOfNamed named
  | .items element => refs element
  | .tuple elements => refsOfAll elements
  | .not _ s => refs s
  | _ => []

def refsOfConstraints : List Constraint → List String
  | [] => []
  | c :: rest => refsOfConstraint c ++ refsOfConstraints rest

def refsOfAll : List Schema → List String
  | [] => []
  | s :: rest => refs s ++ refsOfAll rest

def refsOfNamed : List (String × Schema) → List String
  | [] => []
  | (_, s) :: rest => refs s ++ refsOfNamed rest

end

end Schema

/-! ## References -/

namespace Pointer

/-- One step of a pointer, whose slashes and tildes are written as `~1` and `~0`. -/
def unescape : List Char → List Char
  | '~' :: '1' :: rest => '/' :: unescape rest
  | '~' :: '0' :: rest => '~' :: unescape rest
  | c :: rest => c :: unescape rest
  | [] => []

def follow? : List (List Char) → Value → Option Value
  | [], v => some v
  | s :: rest, .mapping entries =>
    (Entries.find? (String.ofList (unescape s)) entries).bind (follow? rest)
  | s :: rest, .sequence vs => (Decimal.natural? s).bind fun i => (vs[i]?).bind (follow? rest)
  | _ :: _, .scalar _ => none

def steps (acc : List Char) : List Char → List (List Char)
  | [] => [acc.reverse]
  | '/' :: rest => acc.reverse :: steps [] rest
  | c :: rest => steps (c :: acc) rest

def resolve? (r : String) (document : Value) : Option Value :=
  match r.toList with
  | ['#'] => some document
  | '#' :: '/' :: rest => follow? (steps [] rest) document
  | _ => none

end Pointer

namespace SchemaDocument

/-- The schema of a document; none if it is malformed, or if a reference leads nowhere. -/
def ofValue? (v : Value) : Option SchemaDocument := do
  let dialect ← Dialect.of? v
  let root ← Schema.read? dialect v
  let targets ← root.refs.eraseDups.mapM fun r => do
    let target ← Pointer.resolve? r v
    return (r, ← Schema.read? dialect target)
  return ⟨root, targets⟩

def ofValue (v : Value) : Except Error SchemaDocument :=
  match ofValue? v with
  | some doc => .ok doc
  | none => .error (Error.parse "Invalid JSON Schema")

end SchemaDocument

end TypedTemplate
