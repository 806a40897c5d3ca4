import TypedTemplate.Decimal.Reading
import TypedTemplate.Error
import TypedTemplate.Text.Blank
import TypedTemplate.Ty.Basic
import TypedTemplate.Value.Basic

/-!
# Conversion of scalars

A scalar is brought into the form that a scalar type prescribes: numbers are read from texts and written as
texts, and truth values are read from numbers and words.
-/

namespace TypedTemplate

namespace Text

/-- The lower-case form of a text, whose letters beyond ASCII stay as they are. -/
def asciiLower (s : String) : String := String.ofList (s.toList.map Char.toLower)

end Text

namespace Scalar

def asText? : Scalar → Option String
  | null => none
  | bool b => some (boolText b)
  | integer i => some (integerText i)
  | float x => some (Decimal.Layout.plain.text x)
  | string s => some s

/-- A scalar as an integer of 64 bits: a float must be one, and a text must read as one between blanks. -/
def asInteger? : Scalar → Option Int64
  | null => none
  | bool b => some (if b then 1 else 0)
  | integer i => some i
  | float x => x.toInt?.bind fun i => if Decimal.fitsInt64 i then some (Int64.ofInt i) else none
  | string s => Decimal.int64? (Text.trimBlank s.toList)

/-- A scalar as a floating point number; a text must read as one between blanks. -/
def asFloat? : Scalar → Option Binary64
  | null => none
  | bool b => some (if b then .one else .zero)
  | integer i => some (Binary64.ofInt i.toInt)
  | float x => some x
  | string s => Decimal.binary64? (Text.trimBlank s.toList)

/-- A scalar as a truth value: a number other than zero is true, and so are the words `true` and `1`. -/
def asBool? : Scalar → Option Bool
  | null => none
  | bool b => some b
  | integer i => some (i != 0)
  | float x => some (!x.isZero)
  | string s =>
    let word := Text.asciiLower s
    if word = "true" ∨ word = "1" then some true
    else if word = "false" ∨ word = "0" then some false
    else none

end Scalar

namespace Ty

def coerce (ty : Ty) (s : Scalar) : Except Error Scalar :=
  let failure := Error.typeCoercion s.toString ty.name
  let orFail : Option Scalar → Except Error Scalar
    | some s => .ok s
    | none => .error failure
  match ty with
  | string => orFail (s.asText?.map .string)
  | integer => orFail (s.asInteger?.map .integer)
  | float => orFail (s.asFloat?.map .float)
  | boolean => orFail (s.asBool?.map .bool)
  | enum _ values =>
    match s with
    | .string text =>
      let listed := String.intercalate ", " values
      if text ∈ values then .ok (.string text)
      else .error (failure.withCause s!"{text} is not one of {listed}")
    | _ => .error failure
  | _ => .error failure

end Ty

end TypedTemplate
