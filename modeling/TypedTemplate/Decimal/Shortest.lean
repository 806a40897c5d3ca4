import TypedTemplate.Binary64

/-!
# Shortest decimals

The decimal with the fewest digits among those that lie nearer to a given floating point number than to any
other, and of these the one nearest to the number itself.
-/

namespace TypedTemplate.Decimal

/-- The decimal number `digits * 10 ^ exponent`. -/
structure Shortest where
  digits : Nat
  exponent : Int
  deriving DecidableEq, Repr

/-- The interval of the numbers that round to a given one. All three are multiples of the same unit
`2 ^ (exponent)`; the ends belong to the interval if `closed`. -/
structure Interval where
  lower : Nat
  value : Nat
  upper : Nat
  exponent : Int
  closed : Bool

/-- The interval of a finite number other than zero. Below a power of two the neighbours lie half as far apart. -/
def Interval.of (x : Binary64) : Interval :=
  let m := x.significand
  { lower := if m = Nat.pow 2 52 ∧ -1074 < x.exponent then 4 * m - 1 else 4 * m - 2
    value := 4 * m
    upper := 4 * m + 2
    exponent := x.exponent - 2
    closed := m % 2 = 0 }

namespace Interval

/-- The interval's value on the grid of the multiples of `10 ^ k`, as a fraction of the grid's unit; the
other two points have the same denominator. -/
def onGrid (i : Interval) (n : Nat) (k : Int) : Nat × Nat :=
  (n * Nat.pow 2 i.exponent.toNat * Nat.pow 10 (-k).toNat, Nat.pow 2 (-i.exponent).toNat * Nat.pow 10 k.toNat)

def contains (i : Interval) (d : Nat) (k : Int) : Bool :=
  let (low, den) := i.onGrid i.lower k
  let (high, _) := i.onGrid i.upper k
  if i.closed then low ≤ d * den && d * den ≤ high else low < d * den && d * den < high

/-- The point of the grid of `10 ^ k` that lies in the interval and is nearest to the value; from a tie, the greater
or the even one. -/
def nearest? (i : Interval) (tieUp : Bool) (k : Int) : Option Nat :=
  let (num, den) := i.onGrid i.value k
  let d := num / den
  let r := num % den
  match i.contains d k, i.contains (d + 1) k with
  | true, true =>
    if 2 * r < den then some d
    else if den < 2 * r then some (d + 1)
    else if tieUp || d % 2 = 1 then some (d + 1) else some d
  | true, false => some d
  | false, true => some (d + 1)
  | false, false => none

end Interval

/-- Drops zeros from the end of a number's digits, at most as many as the fuel. -/
private def stripZeros : Nat → Nat → Int → Shortest
  | 0, d, k => ⟨d, k⟩
  | fuel + 1, d, k => if d % 10 = 0 ∧ d ≠ 0 then stripZeros fuel (d / 10) (k + 1) else ⟨d, k⟩

/-- Searches grids from `10 ^ k` downwards for a point in the interval. -/
private def search (i : Interval) (tieUp : Bool) : Nat → Int → Shortest
  | 0, k => stripZeros 20 (i.onGrid i.value k).1 k
  | fuel + 1, k =>
    match i.nearest? tieUp k with
    | some d => stripZeros 20 d k
    | none => search i tieUp fuel (k - 1)

/-- The shortest decimal of the size of a finite number other than zero. The search starts on a grid wider than
the number; one of the next twenty has a point in the interval, since seventeen digits tell all numbers apart. -/
def shortest (tieUp : Bool) (x : Binary64) : Shortest :=
  let (num, den) := x.ratio
  let size : Int := ((num.log2 : Int) - den.log2 + 1) * 30103 / 100000
  search (.of x) tieUp 24 (size + 1)

end TypedTemplate.Decimal
