import TypedTemplate.Binary64
import TypedTemplate.Text.Word

/-!
# Reading numerals

Integers and floating point numbers as they stand in plain texts: an optional sign, decimal digits, and for the
latter a point, an exponent, or a word for what is no ordinary number.
-/

namespace TypedTemplate.Decimal

open Text

def digitValue (c : Char) : Nat := c.toNat - '0'.toNat

def natOfDigits (ds : List Char) : Nat := ds.foldl (fun n c => 10 * n + digitValue c) 0

/-- A sign in front of a text: whether it is a minus, and what follows it. -/
def sign : List Char → Bool × List Char
  | '-' :: cs => (true, cs)
  | '+' :: cs => (false, cs)
  | cs => (false, cs)

def natural? (cs : List Char) : Option Nat :=
  if !cs.isEmpty && cs.all isAsciiDigit then some (natOfDigits cs) else none

def integer? (cs : List Char) : Option Int :=
  let (negative, ds) := sign cs
  (natural? ds).map fun n => if negative then -(n : Int) else n

def fitsInt64 (i : Int) : Bool := -Int.pow 2 63 ≤ i && i < Int.pow 2 63

def int64? (cs : List Char) : Option Int64 :=
  (integer? cs).bind fun i => if fitsInt64 i then some (Int64.ofInt i) else none

/-- A position in a list: a whole number below `2 ^ 64`, which may have a plus sign. -/
def position? (cs : List Char) : Option Nat :=
  let ds := match cs with
    | '+' :: ds => ds
    | ds => ds
  (natural? ds).bind fun n => if n < Nat.pow 2 64 then some n else none

/-- The exponent part that may end a numeral: the mark `e`, an optional sign and digits; zero where there is none. -/
def exponent? : List Char → Option Int
  | [] => some 0
  | c :: cs => if c = 'e' ∨ c = 'E' then integer? cs else none

/-- A numeral without sign: digits with at most one point among them, and an exponent. -/
def unsigned? (negative : Bool) (cs : List Char) : Option Binary64 :=
  let whole := cs.takeWhile isAsciiDigit
  let (fraction, tail) := match cs.dropWhile isAsciiDigit with
    | '.' :: r => (r.takeWhile isAsciiDigit, r.dropWhile isAsciiDigit)
    | r => ([], r)
  if whole.isEmpty && fraction.isEmpty then none
  else
    (exponent? tail).map fun e =>
      Binary64.ofDecimal negative (natOfDigits (whole ++ fraction)) (e - fraction.length)

/-- A floating point number: a numeral, or `inf`, `infinity` or `nan` in any case, with an optional sign. -/
def binary64? (cs : List Char) : Option Binary64 :=
  let (negative, body) := sign cs
  let word := String.ofList (body.map Char.toLower)
  if word = "inf" ∨ word = "infinity" then some (.infinity negative)
  else if word = "nan" then some (.nan negative)
  else unsigned? negative body

end TypedTemplate.Decimal
