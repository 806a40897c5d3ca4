import TypedTemplate.Schema.Basic

/-!
# The schema of descriptors

What a descriptor of a type looks like: one of the forms of the types that there always are, or a sequence that
starts with another tag.
-/

namespace TypedTemplate.SchemaDocument

def descriptorRef : Schema := .all [.ref "#/definitions/descriptor"]

def kind (k : JsonKind) : Schema := .all [.type [k]]

def word (s : String) : Schema := .all [.const (.string s)]

/-- Sequences of a fixed length, each element with a schema of its own. -/
def form (elements : List Schema) : Schema :=
  .all [.tuple elements, .maxItems elements.length, .minItems elements.length, .type [.array]]

def sequenceOf (element : Schema) : Schema := .all [.items element, .type [.array]]

def builtinTags : List String :=
  ["String", "Integer", "Float", "Boolean", "Enum", "List", "Map", "Struct", "Choice"]

def notBuiltin : Constraint :=
  .not (.mapping [("enum", .sequence (builtinTags.map .string))]) (.all [.enum (builtinTags.map .string)])

def descriptor : SchemaDocument where
  root := .all [.anyOf [descriptorRef]]
  targets := [
    ("#/definitions/descriptor", .all [.anyOf [
      .all [.ref "#/definitions/scalar"],
      .all [.ref "#/definitions/enum"],
      .all [.ref "#/definitions/list"],
      .all [.ref "#/definitions/map"],
      .all [.ref "#/definitions/structRef"],
      .all [.ref "#/definitions/struct"],
      .all [.ref "#/definitions/choice"],
      .all [.ref "#/definitions/extension"]]]),
    ("#/definitions/scalar", form [.all [.enum (["String", "Integer", "Float", "Boolean"].map .string)]]),
    ("#/definitions/enum", form [word "Enum", kind .string, sequenceOf (kind .string)]),
    ("#/definitions/list", form [word "List", descriptorRef]),
    ("#/definitions/map", form [word "Map", descriptorRef, descriptorRef]),
    ("#/definitions/structRef", form [word "Struct", kind .string]),
    ("#/definitions/struct",
      form [word "Struct", kind .string, sequenceOf (.all [.ref "#/definitions/field"])]),
    ("#/definitions/field",
      form [kind .string, form [kind .boolean, .all [], kind .boolean, descriptorRef]]),
    ("#/definitions/choice", form [word "Choice", kind .string, sequenceOf descriptorRef]),
    ("#/definitions/extension",
      .all [.tuple [.all [notBuiltin, .type [.string]]], .minItems 1, .type [.array]])]

end TypedTemplate.SchemaDocument
