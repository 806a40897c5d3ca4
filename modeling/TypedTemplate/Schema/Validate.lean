import TypedTemplate.Decimal.Reading
import TypedTemplate.Error
import TypedTemplate.Json.Printer
import TypedTemplate.Schema.Basic

/-!
# Validation

Checking a value against a schema, and describing where and why it is not accepted. References are followed as
often as a budget allows, which is enough unless they lead in a circle.
-/

namespace TypedTemplate

namespace Value

mutual

/-- The value as JSON sees it: what is no finite number is null, and the keys of objects are in order. -/
def toJson : Value → Value
  | scalar (.float x) => if x.isFinite then scalar (.float x) else .null
  | scalar s => scalar s
  | sequence elements => sequence (elementsToJson elements)
  | mapping entries => mapping (sortByKey (entriesToJson entries))

def elementsToJson : List Value → List Value
  | [] => []
  | v :: rest => v.toJson :: elementsToJson rest

def entriesToJson : List (String × Value) → List (String × Value)
  | [] => []
  | (k, v) :: rest => (k, v.toJson) :: entriesToJson rest

end

mutual

/-- The value with every float that is an integer of 64 bits written as one. -/
def unifyNumbers : Value → Value
  | scalar (.float x) =>
    match x.toInt? with
    | some i => if Decimal.fitsInt64 i then scalar (.integer (Int64.ofInt i)) else scalar (.float x)
    | none => scalar (.float x)
  | scalar s => scalar s
  | sequence elements => sequence (unifyElements elements)
  | mapping entries => mapping (unifyEntries entries)

def unifyElements : List Value → List Value
  | [] => []
  | v :: rest => v.unifyNumbers :: unifyElements rest

def unifyEntries : List (String × Value) → List (String × Value)
  | [] => []
  | (k, v) :: rest => (k, v.unifyNumbers) :: unifyEntries rest

end

/-- Equality of JSON values, under which `1` and `1.0` are the same number. -/
def jsonEqual (v w : Value) : Bool := v.unifyNumbers == w.unifyNumbers

end Value

/-- A place in a value, and why the value there is not accepted. -/
structure Mismatch where
  /-- The keys and positions that lead to the place, each behind a slash; empty for the whole value. -/
  path : String
  message : String
  deriving DecidableEq, Repr

namespace Mismatch

def toString (m : Mismatch) : String :=
  if m.path = "" then m.message else s!"{m.path}: {m.message}"

def toError (m : Mismatch) : Error := Error.validation m.path m.message

end Mismatch

namespace Schema

/-! ## Acceptance -/

mutual

/-- Whether a schema accepts a value, given the same for the targets of references. -/
def acceptsWith (follow : String → Value → Bool) : Schema → Value → Bool
  | .always b, _ => b
  | .all constraints, v => meetsAll follow constraints v
termination_by structural s => s

def meets (follow : String → Value → Bool) : Constraint → Value → Bool
  | .ref target, v => follow target v
  | .anyOf alternatives, v => acceptsAny follow alternatives v
  | .const expected, v => v.jsonEqual expected
  | .definitions _, _ => true
  | .enum options, v => options.any v.jsonEqual
  | .items element, .sequence vs => vs.all (acceptsWith follow element)
  | .tuple elements, .sequence vs => acceptsEach follow elements vs
  | .maxItems limit, .sequence vs => vs.length ≤ limit
  | .minItems limit, .sequence vs => limit ≤ vs.length
  | .items _, _ | .tuple _, _ | .maxItems _, _ | .minItems _, _ => true
  | .not _ s, v => !acceptsWith follow s v
  | .type kinds, v => kinds.any (·.accepts v)
termination_by structural s => s

def meetsAll (follow : String → Value → Bool) : List Constraint → Value → Bool
  | [], _ => true
  | c :: rest, v => meets follow c v && meetsAll follow rest v
termination_by structural s => s

def acceptsAny (follow : String → Value → Bool) : List Schema → Value → Bool
  | [], _ => false
  | s :: rest, v => acceptsWith follow s v || acceptsAny follow rest v
termination_by structural s => s

/-- Element by element, as far as there are both schemas and elements. -/
def acceptsEach (follow : String → Value → Bool) : List Schema → List Value → Bool
  | s :: rest, v :: vs => acceptsWith follow s v && acceptsEach follow rest vs
  | _, _ => true
termination_by structural s => s

end

/-- A reference accepts what its target does. -/
theorem acceptsWith_ref (follow : String → Value → Bool) (target : String) (v : Value) :
    acceptsWith follow (.all [.ref target]) v = follow target v := by
  simp [acceptsWith, meetsAll, meets]

/-! ## Mismatches -/

def itemCount (n : Nat) : String := if n = 1 then "1 item" else s!"{n} items"

def maxListed : Nat := 3

/-- Texts behind those before them, all but the last behind commas. -/
def listOr (texts : List String) (last : Option String) : String :=
  match texts, last with
  | texts, some last => String.intercalate ", " texts ++ " or " ++ last
  | texts, none =>
    match texts.reverse with
    | [] => ""
    | [t] => t
    | t :: before => String.intercalate ", " before.reverse ++ " or " ++ t

/-- The options of an enumeration in a message: all of them, or the first few and the number of the others. -/
def listOptions (options : List Value) : String :=
  let texts := options.map fun v => Json.compact v.toJson
  if texts.length ≤ maxListed then listOr texts none
  else
    let others := texts.length - maxListed
    listOr (texts.take maxListed) (some s!"{others} other candidates")

def typeMessage (kinds : List JsonKind) (shown : String) : String :=
  match kinds with
  | [k] => s!"{shown} is not of type " ++ Json.string k.word
  | kinds => s!"{shown} is not of types " ++ String.intercalate ", " (kinds.map fun k => Json.string k.word)

private def demand (met : Bool) (path message : String) : List Mismatch :=
  if met then [] else [⟨path, message⟩]

def eachElement (check : String → Value → List Mismatch) (path : String) : Nat → List Value → List Mismatch
  | _, [] => []
  | i, v :: rest => check s!"{path}/{i}" v ++ eachElement check path (i + 1) rest

mutual

/-- The mismatches of a value and a schema, given acceptance and mismatches for the targets of references. -/
def mismatchesWith (follow : String → Value → Bool) (target : String → String → Value → List Mismatch)
    (path : String) : Schema → Value → List Mismatch
  | .always b, v => demand b path ("False schema does not allow " ++ Json.compact v)
  | .all constraints, v => mismatchesOfAll follow target path constraints v
termination_by structural s => s

def mismatchesOf (follow : String → Value → Bool) (target : String → String → Value → List Mismatch)
    (path : String) : Constraint → Value → List Mismatch
  | .ref name, v => target name path v
  | .anyOf alternatives, v =>
    demand (acceptsAny follow alternatives v) path
      (Json.compact v ++ " is not valid under any of the schemas listed in the 'anyOf' keyword")
  | .const expected, v => demand (v.jsonEqual expected) path (Json.compact expected.toJson ++ " was expected")
  | .definitions _, _ => []
  | .enum options, v =>
    demand (options.any v.jsonEqual) path (Json.compact v ++ " is not one of " ++ listOptions options)
  | .items element, .sequence vs =>
    eachElement (fun path v => mismatchesWith follow target path element v) path 0 vs
  | .tuple elements, .sequence vs => mismatchesOfEach follow target path 0 elements vs
  | .maxItems limit, .sequence vs =>
    demand (vs.length ≤ limit) path (Json.compact (.sequence vs) ++ " has more than " ++ itemCount limit)
  | .minItems limit, .sequence vs =>
    demand (limit ≤ vs.length) path (Json.compact (.sequence vs) ++ " has less than " ++ itemCount limit)
  | .items _, _ | .tuple _, _ | .maxItems _, _ | .minItems _, _ => []
  | .not source s, v =>
    demand (!acceptsWith follow s v) path
      (Json.compact source.toJson ++ " is not allowed for " ++ Json.compact v)
  | .type kinds, v => demand (kinds.any (·.accepts v)) path (typeMessage kinds (Json.compact v))
termination_by structural s => s

def mismatchesOfAll (follow : String → Value → Bool) (target : String → String → Value → List Mismatch)
    (path : String) : List Constraint → Value → List Mismatch
  | [], _ => []
  | c :: rest, v => mismatchesOf follow target path c v ++ mismatchesOfAll follow target path rest v
termination_by structural s => s

def mismatchesOfEach (follow : String → Value → Bool) (target : String → String → Value → List Mismatch)
    (path : String) (i : Nat) : List Schema → List Value → List Mismatch
  | s :: rest, v :: vs =>
    mismatchesWith follow target s!"{path}/{i}" s v ++ mismatchesOfEach follow target path (i + 1) rest vs
  | _, _ => []
termination_by structural s => s

end

end Schema

namespace SchemaDocument

variable (doc : SchemaDocument)

/-- Whether the target of a reference accepts a value, within a budget of references to follow. -/
def follow : Nat → String → Value → Bool
  | 0, _, _ => false
  | budget + 1, r, v => (doc.target r).acceptsWith (follow budget) v

/-- The mismatches of a value and the target of a reference, within a budget of references to follow. -/
def followMismatches : Nat → String → String → Value → List Mismatch
  | 0, _, _, _ => []
  | budget + 1, r, path, v =>
    (doc.target r).mismatchesWith (doc.follow budget) (followMismatches budget) path v

/-- The budget for a value: at each level of its nesting, every target can be followed once. -/
def budget (v : Value) : Nat := (doc.targets.length + 1) * (v.depth + 1)

def accepts (v : Value) : Bool :=
  let v := v.toJson
  doc.root.acceptsWith (doc.follow (doc.budget v)) v

def mismatches (v : Value) : List Mismatch :=
  let v := v.toJson
  let budget := doc.budget v
  doc.root.mismatchesWith (doc.follow budget) (doc.followMismatches budget) "" v

def validate (v : Value) : Except Error Unit :=
  match doc.mismatches v with
  | [] => .ok ()
  | m :: _ => .error m.toError

end SchemaDocument

end TypedTemplate
