import TypedTemplate.Error

/-!
# Checks

The result of checking an object against its type: it passes, or it fails with a description of the first
problem found.
-/

namespace TypedTemplate

/-- Whether an object passes, and if not, why. -/
inductive Check where
  | pass
  | fail (message : String)
  deriving DecidableEq, Repr

namespace Check

def isOk : Check → Bool
  | pass => true
  | fail _ => false

def message : Check → String
  | pass => ""
  | fail message => message

def toString : Check → String
  | pass => "TypeCheck(OK)"
  | fail message => s!"TypeCheck(FAILED): {message}"

def toExcept : Check → Except Error Unit
  | pass => .ok ()
  | fail message => .error (Error.validation "<root>" message)

def andThen : Check → (Unit → Check) → Check
  | pass, next => next ()
  | fail message, _ => fail message

end Check

end TypedTemplate
