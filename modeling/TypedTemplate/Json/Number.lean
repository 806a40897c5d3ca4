import TypedTemplate.Decimal.Reading
import TypedTemplate.Value.Basic

/-!
# Numbers in JSON

A number without fraction and exponent that fits into 64 bits with a sign is an integer, except for `-0`. Any other
is a floating point number: as many leading digits as fit into 64 bits are rounded, and the result is scaled by
a power of ten. A number beyond the range of floating point numbers is malformed.
-/

namespace TypedTemplate.Json

open Text

/-- The digits of a number read so far, and the power of ten that they are to be scaled by. -/
structure Scaled where
  significand : Nat
  exponent : Int

/-- Takes digits into a significand while it stays below `2 ^ 64`, counting them, and returns those that are left. -/
def takeDigits : Nat → Nat → List Char → Nat × Nat × List Char
  | n, count, [] => (n, count, [])
  | n, count, c :: cs =>
    let next := 10 * n + Decimal.digitValue c
    if next < Nat.pow 2 64 then takeDigits next (count + 1) cs else (n, count, c :: cs)

def pow10 (k : Nat) : Binary64 := Binary64.ofRatio false (Nat.pow 10 k) 1

/-- Divides by powers of ten that are numbers themselves, one after the other; after three of them nothing is left. -/
def scaleDown : Nat → Binary64 → Nat → Binary64
  | 0, x, _ => x
  | fuel + 1, x, k => if k ≤ 308 then x.divAbs (pow10 k) else scaleDown fuel (x.divAbs (pow10 308)) (k - 308)

def Scaled.size? (s : Scaled) : Option Binary64 :=
  let x := Binary64.ofRatio false s.significand 1
  if s.significand = 0 then some x
  else if s.exponent < 0 then some (scaleDown 4 x s.exponent.natAbs)
  else if 308 < s.exponent then none
  else
    let y := x.mulAbs (pow10 s.exponent.toNat)
    if y.isInfinite then none else some y

def Scaled.value? (negative : Bool) (s : Scaled) : Option Scalar :=
  s.size?.map fun x => .float (if negative then x.neg else x)

/-- Reads an exponent, whose mark has been read, and returns what follows it. An exponent of more than 31 bits
makes the number zero or too large. -/
def exponentPart (negative : Bool) (s : Scaled) (cs : List Char) : Option (Scalar × List Char) :=
  let (minus, cs) := Decimal.sign cs
  let ds := cs.takeWhile isAsciiDigit
  let rest := cs.dropWhile isAsciiDigit
  if ds.isEmpty then none
  else
    let e := Decimal.natOfDigits ds
    if Nat.pow 2 31 ≤ e then
      if s.significand ≠ 0 ∧ !minus then none
      else some (.float (Binary64.ofFields negative 0), rest)
    else
      let s := { s with exponent := s.exponent + if minus then -(e : Int) else e }
      (s.value? negative).map (·, rest)

def afterFraction (negative : Bool) (s : Scaled) (cs : List Char) : Option (Scalar × List Char) :=
  match cs with
  | 'e' :: cs => exponentPart negative s cs
  | 'E' :: cs => exponentPart negative s cs
  | cs => (s.value? negative).map (·, cs)

/-- Reads the fraction of a number, whose point has been read, and what may follow it. -/
def fractionPart (negative : Bool) (s : Scaled) (cs : List Char) : Option (Scalar × List Char) :=
  let ds := cs.takeWhile isAsciiDigit
  let (n, count, _) := takeDigits s.significand 0 ds
  if ds.isEmpty then none
  else afterFraction negative ⟨n, s.exponent - count⟩ (cs.dropWhile isAsciiDigit)

def wholeNumber (negative : Bool) (n : Nat) : Scalar :=
  let i : Int := if negative then -n else n
  if (negative && n = 0) || !Decimal.fitsInt64 i then
    .float (if negative then (Binary64.ofInt n).neg else Binary64.ofInt n)
  else
    .integer (Int64.ofInt i)

def number (cs : List Char) : Option (Scalar × List Char) :=
  let (negative, cs) := match cs with
    | '-' :: cs => (true, cs)
    | cs => (false, cs)
  let ds := cs.takeWhile isAsciiDigit
  let rest := cs.dropWhile isAsciiDigit
  if ds.isEmpty || (ds.length ≠ 1 && ds.head? = some '0') then none
  else
    let (n, _, left) := takeDigits 0 0 ds
    let s : Scaled := ⟨n, left.length⟩
    match rest with
    | '.' :: rest => fractionPart negative s rest
    | 'e' :: rest => exponentPart negative s rest
    | 'E' :: rest => exponentPart negative s rest
    | rest =>
      if left.isEmpty then some (wholeNumber negative n, rest)
      else (s.value? negative).map (·, rest)

end TypedTemplate.Json
