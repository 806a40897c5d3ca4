/-!
# Tokens

The words of a YAML text: the brackets that indentation implies and those that are written, the signs of entries,
keys and values, and the scalars with their anchors and tags.
-/

namespace TypedTemplate.Yaml

inductive Token where
  | version (major minor : Nat)
  | handle (name expansion : String)
  | documentStart
  | documentEnd
  | blockSequenceStart
  | blockMappingStart
  | blockEnd
  | flowSequenceStart
  | flowSequenceEnd
  | flowMappingStart
  | flowMappingEnd
  | comma
  | entry
  | key
  | value
  | alias (name : String)
  | anchor (name : String)
  | tag (handle suffix : String)
  | scalar (plain : Bool) (text : String)
  deriving DecidableEq, Repr

namespace Token

def isDirective : Token → Bool
  | version .. | handle .. => true
  | _ => false

end Token

end TypedTemplate.Yaml
