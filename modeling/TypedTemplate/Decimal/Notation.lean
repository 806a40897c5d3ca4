import TypedTemplate.Decimal.Shortest

/-!
# Notations for floating point numbers

How the shortest digits of a number are laid out: with a point in their midst as long as the number is neither
very large nor very small, and with an exponent otherwise. A `Layout` holds the choices that differ from
format to format.
-/

namespace TypedTemplate.Decimal

structure Layout where
  /-- The least exponent of the first digit for which the point stands among the digits. -/
  leastPositional : Int
  /-- The first exponent from which on the number is written with an exponent. -/
  greatestPositional : Int
  /-- Whether a positive exponent has a sign. -/
  plusSign : Bool
  /-- Whether of two equally near decimals the greater one is taken, rather than the even one. -/
  tieUp : Bool
  /-- The texts of what is no number, and of the infinities. -/
  nan : String
  infinity : String
  negativeInfinity : String

namespace Layout

def plain : Layout := ⟨-4, 16, false, true, "NaN", "inf", "-inf"⟩

/-- JSON: positional from `0.00001` to below `10 ^ 16`; only finite numbers have a text of their own. -/
def json : Layout := ⟨-5, 16, true, false, "null", "null", "null"⟩

def yaml : Layout := ⟨-5, 16, false, false, ".nan", ".inf", "-.inf"⟩

/-- The digits `ds` with the exponent `e` of the first of them, written with a point. -/
def positional (ds : List Char) (e : Int) : List Char :=
  if e < 0 then
    '0' :: '.' :: List.replicate (-e - 1).toNat '0' ++ ds
  else
    let whole := e.toNat + 1
    if ds.length ≤ whole then ds ++ List.replicate (whole - ds.length) '0' ++ ['.', '0']
    else ds.take whole ++ '.' :: ds.drop whole

/-- The digits `ds` with the exponent `e` of the first of them, written with that exponent. -/
def scientific (l : Layout) (ds : List Char) (e : Int) : List Char :=
  let fraction := if ds.length ≤ 1 then [] else '.' :: ds.drop 1
  let sign := if e < 0 then ['-'] else if l.plusSign then ['+'] else []
  ds.take 1 ++ fraction ++ 'e' :: sign ++ Nat.toDigits 10 e.natAbs

def size (l : Layout) (x : Binary64) : List Char :=
  if x.isZero then ['0', '.', '0']
  else
    let s := shortest l.tieUp x
    let ds := Nat.toDigits 10 s.digits
    let e := s.exponent + ds.length - 1
    if l.leastPositional ≤ e ∧ e < l.greatestPositional then positional ds e else l.scientific ds e

def text (l : Layout) (x : Binary64) : String :=
  if x.isNaN then l.nan
  else if x.isInfinite then if x.isNegative then l.negativeInfinity else l.infinity
  else String.ofList ((if x.isNegative then ['-'] else []) ++ l.size x)

end Layout

end TypedTemplate.Decimal
