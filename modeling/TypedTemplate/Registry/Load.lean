import TypedTemplate.File
import TypedTemplate.Json.Parser
import TypedTemplate.Registry.Reify
import TypedTemplate.Schema.Descriptor
import TypedTemplate.Schema.Validate
import TypedTemplate.Yaml.Parser

/-!
# Loading descriptors

Reading descriptors from texts and files, and making all the types that they name. A text is a descriptor only if the
schema of descriptors accepts it.
-/

namespace TypedTemplate

namespace Descriptor

def checked (v : Value) : Except Error Value := do
  SchemaDocument.descriptor.validate v
  return v

def ofJson (text : String) : Except Error Value := do checked (← Json.parse text)

/-- Reads the text of a descriptor in the format that the path of its file tells: YAML, or else JSON. -/
def parseAt (path text : String) : Except Error Value :=
  match Path.extension? path with
  | some "yaml" | some "yml" => Yaml.parse text
  | _ => Json.parse text

def ofFile (files : Files) (path : String) : Except Error Value := do
  match files path with
  | .error reason => throw (Error.io path reason)
  | .ok text => checked (← atPath path (parseAt path text))

end Descriptor

namespace Registry

/-- The types that are made from a descriptor, by name. -/
def load (r : Registry) (descriptor : Value) : Making (List (String × Handle)) := do
  let _ ← r.reify descriptor
  return (← get).named

end Registry

end TypedTemplate
