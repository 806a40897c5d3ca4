import TypedTemplate.Error
import TypedTemplate.Yaml.Node
import TypedTemplate.Yaml.Scalar
import TypedTemplate.Yaml.Token.Stream

/-!
# Reading YAML

A text that holds at most one document is read as a value. The keys of mappings must be texts; where the caller allows
it, every scalar in the place of a key counts as one.
-/

namespace TypedTemplate.Yaml

namespace Node

def key? (anyScalar : Bool) : Node → Option String
  | scalar tag plain text =>
    if anyScalar then some text
    else
      match resolve? tag plain text with
      | some (.string s) => some s
      | _ => none
  | _ => none

mutual

def value? (anyScalar : Bool) : Node → Option Value
  | scalar tag plain text => (resolve? tag plain text).map .scalar
  | sequence tag elements =>
    if isLocalTag tag then none else (elementValues? anyScalar elements).map .sequence
  | mapping tag entries =>
    if isLocalTag tag then none
    else (entryValues? anyScalar entries).map fun es => .mapping (Entries.ofList es)

def elementValues? (anyScalar : Bool) : List Node → Option (List Value)
  | [] => some []
  | n :: rest => do
    let v ← n.value? anyScalar
    let vs ← elementValues? anyScalar rest
    return v :: vs

def entryValues? (anyScalar : Bool) : List (Node × Node) → Option (List (String × Value))
  | [] => some []
  | (k, n) :: rest => do
    let k ← k.key? anyScalar
    let v ← n.value? anyScalar
    let es ← entryValues? anyScalar rest
    return (k, v) :: es

end

end Node

def maxDepth : Nat := 128

def value? (anyScalar : Bool) (text : String) : Option Value := do
  let node ← Node.ofTokens? (← tokens? (← Glyph.ofText? text))
  let v ← node.value? anyScalar
  if v.depth ≤ maxDepth then return v else none

def parse (text : String) : Except Error Value :=
  match value? false text with
  | some v => .ok v
  | none => .error (Error.parse "Invalid YAML: not a document of plain data")

def parseAnyKeys (text : String) : Except Error Value :=
  match value? true text with
  | some v => .ok v
  | none => .error (Error.parse "Invalid YAML: not a document of plain data")

end TypedTemplate.Yaml
