/-!
# Binary floating point numbers

A double precision number is its 64 bits: a sign, an exponent field of 11 bits and a fraction of 52 bits. All
that is computed with it is computed exactly on natural numbers and rounded once, to the nearest number and
from a tie to the even one. The total order of `Binary64.cmp` tells all bit patterns apart.
-/

namespace TypedTemplate

/-- A double precision floating point number. -/
structure Binary64 where
  bits : UInt64
  deriving DecidableEq, Repr

namespace Binary64

/-! ## Fields -/

def magnitudeBits (x : Binary64) : Nat := x.bits.toNat % Nat.pow 2 63

def isNegative (x : Binary64) : Bool := Nat.pow 2 63 ≤ x.bits.toNat

def ofFields (negative : Bool) (magnitudeBits : Nat) : Binary64 :=
  ⟨UInt64.ofNat ((if negative then Nat.pow 2 63 else 0) + magnitudeBits)⟩

/-- The bits of infinity below the sign; greater ones are those of numbers that are not. -/
def infinityBits : Nat := 2047 * Nat.pow 2 52

def infinity (negative : Bool) : Binary64 := ofFields negative infinityBits

def nan (negative : Bool) : Binary64 := ofFields negative (infinityBits + Nat.pow 2 51)

def zero : Binary64 := ⟨0⟩

def one : Binary64 := ofFields false (1023 * Nat.pow 2 52)

def isNaN (x : Binary64) : Bool := infinityBits < x.magnitudeBits

def isInfinite (x : Binary64) : Bool := x.magnitudeBits = infinityBits

def isFinite (x : Binary64) : Bool := x.magnitudeBits < infinityBits

def isZero (x : Binary64) : Bool := x.magnitudeBits = 0

/-- The size of a finite number is `significand * 2 ^ exponent`. -/
def significand (x : Binary64) : Nat :=
  if x.magnitudeBits < Nat.pow 2 52 then x.magnitudeBits else Nat.pow 2 52 + x.magnitudeBits % Nat.pow 2 52

def exponent (x : Binary64) : Int :=
  if x.magnitudeBits < Nat.pow 2 52 then -1074 else (x.magnitudeBits / Nat.pow 2 52 : Nat) - 1075

def ratio (x : Binary64) : Nat × Nat :=
  (x.significand * Nat.pow 2 x.exponent.toNat, Nat.pow 2 (-x.exponent).toNat)

/-! ## Order -/

/-- The place of a bit pattern in the total order: negative ones backwards below the others. -/
def rank (x : Binary64) : Int :=
  if x.isNegative then -(x.magnitudeBits : Int) - 1 else x.magnitudeBits

/-- The total order of bit patterns, in which `-0.0` lies below `0.0` and what is no number at the ends. -/
def cmp (x y : Binary64) : Ordering := compare x.rank y.rank

/-! ## Rounding -/

/-- The quotient rounded to the nearest natural number, from a tie to the even one. -/
def roundDiv (num den : Nat) : Nat :=
  let q := num / den
  let r := num % den
  if 2 * r < den then q
  else if den < 2 * r then q + 1
  else q + q % 2

private def scaledRound (num den : Nat) (e : Int) : Nat :=
  roundDiv (num * Nat.pow 2 (-e).toNat) (den * Nat.pow 2 e.toNat)

/-- The exponent of the significand of `num / den`: the quotient by `2 ^ e` has 53 bits, unless the number is too
small for that. -/
private def significandExponent (num den : Nat) : Int :=
  let e : Int := (num.log2 : Int) - den.log2 - 52
  let e := if num * Nat.pow 2 (-e).toNat < den * Nat.pow 2 e.toNat * Nat.pow 2 52 then e - 1 else e
  max e (-1074)

def ofRatio (negative : Bool) (num den : Nat) : Binary64 :=
  if num = 0 then ofFields negative 0
  else
    let e := significandExponent num den
    let bits := (e + 1074).toNat * Nat.pow 2 52 + scaledRound num den e
    ofFields negative (min bits infinityBits)

def ofInt (i : Int) : Binary64 := ofRatio (i < 0) i.natAbs 1

/-- The number nearest to `digits * 10 ^ exponent`. Beyond the widest range of exponents the result is known
without the power of ten. -/
def ofDecimal (negative : Bool) (digits : Nat) (exponent : Int) : Binary64 :=
  if digits = 0 then ofFields negative 0
  else
    let size : Int := (digits.log2 : Int) * 3 / 10 + exponent
    if 400 < size then infinity negative
    else if exponent < -400 - (digits.log2 : Int) then ofFields negative 0
    else ofRatio negative (digits * Nat.pow 10 exponent.toNat) (Nat.pow 10 (-exponent).toNat)

/-- The product of two finite numbers, as a number that is not negative. -/
def mulAbs (x y : Binary64) : Binary64 :=
  ofRatio false (x.ratio.1 * y.ratio.1) (x.ratio.2 * y.ratio.2)

/-- The quotient of two finite numbers, as a number that is not negative. -/
def divAbs (x y : Binary64) : Binary64 :=
  ofRatio false (x.ratio.1 * y.ratio.2) (x.ratio.2 * y.ratio.1)

def neg (x : Binary64) : Binary64 := ofFields (!x.isNegative) x.magnitudeBits

def toInt? (x : Binary64) : Option Int :=
  let (num, den) := x.ratio
  if x.isFinite ∧ num % den = 0 then
    some (if x.isNegative then -((num / den : Nat) : Int) else (num / den : Nat))
  else
    none

end Binary64

end TypedTemplate
