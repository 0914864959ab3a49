import Workflow.Decimal.Dyadic

/-!
# Decimal text read by one scaling

A quick way to read a decimal: the leading digits that fit in 64 bits are rounded to a double,
which is then multiplied or divided once by a power of ten. Up to fifteen digits and modest
exponents this gives the nearest double; beyond that it may miss it by a last bit. Further digits
of a fraction are dropped, and further digits of a whole number only raise the exponent.
-/
namespace Workflow.Decimal

/-- The digits of a decimal that were kept, and the power of ten that scales them. -/
structure Scaled where
  digits : Nat
  exponent : Int
  deriving DecidableEq, Repr

/-- The greatest number of 64 bits without a sign. -/
def maxWord : Nat := 18446744073709551615

def digitValue (c : Char) : Nat := c.toNat - '0'.toNat

/-- Adds the digits of a whole part. Once a digit does not fit, it and all after it only count. -/
def Scaled.addWhole (s : Scaled) : List Char → Scaled
  | [] => s
  | c :: rest =>
    if s.digits * 10 + digitValue c ≤ maxWord then
      Scaled.addWhole ⟨s.digits * 10 + digitValue c, s.exponent⟩ rest
    else ⟨s.digits, s.exponent + (c :: rest).length⟩

/-- Adds the digits of a fraction, up to the first that does not fit. -/
def Scaled.addFraction (s : Scaled) : List Char → Scaled
  | [] => s
  | c :: rest =>
    if s.digits * 10 + digitValue c ≤ maxWord then
      Scaled.addFraction ⟨s.digits * 10 + digitValue c, s.exponent - 1⟩ rest
    else s

def powerOfTen (n : Nat) : Float := nearest (Nat.pow 10 n) 1

/-- Division by a power of ten too small for one step, in steps of `10^308`. -/
def divideByPower (x : Float) (n : Nat) : Float :=
  if n ≤ 308 then x / powerOfTen n
  else if x == 0 then x
  else divideByPower (x / powerOfTen 308) (n - 308)
termination_by n

/-- The double of a scaled decimal; `none` if it is too great for a double. -/
def Scaled.toFloat? (s : Scaled) : Option Float :=
  let x := nearest s.digits 1
  if s.exponent < 0 then
    if s.digits = 0 then some x else some (divideByPower x s.exponent.natAbs)
  else if 308 < s.exponent then
    if s.digits = 0 then some x else none
  else
    let y := x * powerOfTen s.exponent.toNat
    if y.isFinite then some y else none

end Workflow.Decimal
