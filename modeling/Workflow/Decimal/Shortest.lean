import Workflow.Decimal.Dyadic

/-!
# The shortest decimal that reads back

Every double is the nearest double to all the numbers of an interval around it, whose ends belong
to it exactly when the mantissa is even. Of the decimals in that interval the text of a double is
one with the fewest digits, and of those the nearest to the double.
-/
namespace Workflow.Decimal

/-- A positive decimal: `d₁.d₂d₃… · 10^exponent`, the digits without zeros at the end. -/
structure Digits where
  digits : List Char
  exponent : Int
  deriving DecidableEq, Repr

/-- The greatest `p` with `10^p ≤ num / den`, for positive `num` and `den`. -/
def decimalExponent (num den : Nat) : Int :=
  if den ≤ num then ((Nat.toDigits 10 (num / den)).length : Int) - 1
  else
    let j := (List.range 400).find? (fun j => decide (den ≤ num * Nat.pow 10 (j + 1)))
    Int.negSucc (j.getD 0)

/-- A double with the interval of the numbers that round to it, all in units of `2^unit`. -/
structure Interval where
  low : Nat
  value : Nat
  high : Nat
  closed : Bool
  unit : Int

/-- The interval of `m · 2^q`. Below a power of two the doubles lie twice as close. -/
def Interval.around (m : Nat) (q : Int) : Interval :=
  { low := if m = Nat.pow 2 52 ∧ -1074 < q then 4 * m - 1 else 4 * m - 2
    value := 4 * m
    high := 4 * m + 2
    closed := m % 2 = 0
    unit := q - 2 }

/-- One of the two neighbours of the double on the grid of the multiples of `10^k` that lies in
the interval: the nearer one, and of two equally near the even one. -/
def Interval.gridPoint? (i : Interval) (k : Int) : Option Nat :=
  let a := Nat.pow 10 k.toNat * Nat.pow 2 (-i.unit).toNat
  let b := Nat.pow 10 (-k).toNat * Nat.pow 2 i.unit.toNat
  let inside (d : Nat) : Bool :=
    if i.closed then decide (i.low * b ≤ d * a) && decide (d * a ≤ i.high * b)
    else decide (i.low * b < d * a) && decide (d * a < i.high * b)
  let down := i.value * b / a
  let below := i.value * b - down * a
  let above := (down + 1) * a - i.value * b
  match inside down, inside (down + 1) with
  | true, true =>
    if below < above then some down
    else if above < below then some (down + 1)
    else if down % 2 = 0 then some down else some (down + 1)
  | true, false => some down
  | false, true => some (down + 1)
  | false, false => none

def Digits.ofScaled (d : Nat) (k : Int) : Digits :=
  let all := Nat.toDigits 10 d
  { digits := (all.reverse.dropWhile (· == '0')).reverse
    exponent := k + all.length - 1 }

/-- The shortest decimal that reads back as `m · 2^q`, for positive `m`. Seventeen digits always
suffice. -/
def shortest (m : Nat) (q : Int) : Digits :=
  let i := Interval.around m q
  let p := decimalExponent (i.value * Nat.pow 2 i.unit.toNat) (Nat.pow 2 (-i.unit).toNat)
  match (List.range 17).findSome? (fun (n : Nat) =>
      (i.gridPoint? (p - (n : Int))).map (fun d => Digits.ofScaled d (p - (n : Int)))) with
  | some d => d
  | none => Digits.ofScaled 0 0

end Workflow.Decimal
