/-!
# Floating-point numbers as exact fractions

A finite double is `m · 2^q` with a natural number `m` and an integer `q`. This module takes the
two apart and puts the double nearest to a fraction together, all in exact integer arithmetic.
-/
namespace Workflow.Decimal

/-- The exact value of a finite double: `(-1)^negative · mantissa · 2^exponent`. -/
structure Dyadic where
  negative : Bool
  mantissa : Nat
  exponent : Int
  deriving DecidableEq, Repr

/-- The sign, the mantissa and the exponent of a finite double. -/
def Dyadic.ofFloat (x : Float) : Dyadic :=
  let bits := x.toBits.toNat
  let field : Nat := bits / Nat.pow 2 52 % Nat.pow 2 11
  let fraction : Nat := bits % Nat.pow 2 52
  { negative := bits / Nat.pow 2 63 = 1
    mantissa := if field = 0 then fraction else fraction + Nat.pow 2 52
    exponent := if field = 0 then -1074 else (field : Int) - 1075 }

/-- A quotient rounded to the nearest integer, a half to the even neighbour. -/
def roundDiv (num den : Nat) : Nat :=
  let down := num / den
  let twice := 2 * (num % den)
  if twice < den then down
  else if den < twice then down + 1
  else if down % 2 = 0 then down else down + 1

/-- The greatest `e` with `2^e ≤ num / den`, for positive `num` and `den`. -/
def binaryExponent (num den : Nat) : Int :=
  let e := (num.log2 : Int) - (den.log2 : Int)
  if num * Nat.pow 2 (-e).toNat < den * Nat.pow 2 e.toNat then e - 1 else e

/-- The bits of the double nearest to `num / den`, a tie going to the even mantissa and a value
beyond the greatest double to infinity. -/
def nearestBits (num den : Nat) : UInt64 :=
  if num = 0 then 0
  else
    let q := max (binaryExponent num den - 52) (-1074)
    let m := roundDiv (num * Nat.pow 2 (-q).toNat) (den * Nat.pow 2 q.toNat)
    UInt64.ofNat (min ((q + 1074).toNat * Nat.pow 2 52 + m) 0x7ff0000000000000)

def nearest (num den : Nat) : Float := Float.ofBits (nearestBits num den)

def nearestInt (i : Int) : Float :=
  if i < 0 then -(nearest i.natAbs 1) else nearest i.natAbs 1

/-- The double nearest to `digits · 10^exponent`. Exponents far outside the range of doubles are
decided without building the power. -/
def nearestScientific (digits : Nat) (exponent : Int) : Float :=
  if digits = 0 then nearest 0 1
  else if 400 < exponent then Float.ofBits 0x7ff0000000000000
  else if exponent < -400 - (digits.log2 : Int) then nearest 0 1
  else nearest (digits * Nat.pow 10 exponent.toNat) (Nat.pow 10 (-exponent).toNat)

end Workflow.Decimal
