import TypedTemplate.Json.Parser
import TypedTemplate.Object.Construct
import TypedTemplate.Ty.Prune

/-!
# Loading objects

Making an object of a document. What structs do not declare is refused if the document is read strictly, and dropped
otherwise.
-/

namespace TypedTemplate.Ty

variable (d : Declarations)

def load (t : Ty) (strict : Bool) (v : Value) : Except Error Object :=
  t.construct d (if strict then v else t.prune d v).toInput

/-- Makes an object of a document in JSON. -/
def loadJson (t : Ty) (strict : Bool) (text : String) : Except Error Object := do
  t.load d strict (← Json.parse text)

end TypedTemplate.Ty
