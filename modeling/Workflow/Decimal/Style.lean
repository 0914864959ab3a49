import Workflow.Decimal.Shortest

/-!
# How floating-point numbers are written

A style decides which numbers are written with an exponent and how. Whole numbers always keep a
`.0` or an exponent, so that the text reads back as a floating-point number.
-/
namespace Workflow.Decimal

/-- Which decimal exponents are written in positional notation; `none` leaves a side open. -/
structure Style where
  least : Option Int
  below : Option Int

/-- Positional from `0.00001` up to, and without, ten to the sixteenth. -/
def Style.json : Style := ⟨some (-5), some 16⟩

def Style.positional : Style := ⟨none, none⟩

/-- Whether a style writes numbers of a decimal exponent in positional notation. -/
def Style.isPositional (s : Style) (e : Int) : Bool :=
  (s.least.all (fun l => decide (l ≤ e))) && (s.below.all (fun b => decide (e < b)))

def Digits.positional (d : Digits) : List Char :=
  if d.exponent < 0 then
    "0.".toList ++ List.replicate (-d.exponent - 1).toNat '0' ++ d.digits
  else
    let n := d.exponent.toNat + 1
    let whole := d.digits.take n ++ List.replicate (n - d.digits.length) '0'
    let fraction := d.digits.drop n
    whole ++ '.' :: (if fraction.isEmpty then ['0'] else fraction)

/-- A positive decimal with an exponent, whose sign is always written. -/
def Digits.exponential (d : Digits) : List Char :=
  let fraction := d.digits.drop 1
  d.digits.take 1 ++ (if fraction.isEmpty then [] else '.' :: fraction)
    ++ 'e' :: (if d.exponent < 0 then '-' else '+') :: Nat.toDigits 10 d.exponent.natAbs

def Style.write (s : Style) (x : Float) : String :=
  if x.isNaN then "NaN"
  else
    let v := Dyadic.ofFloat x
    let body :=
      if x.isInf then "inf".toList
      else if v.mantissa = 0 then "0.0".toList
      else
        let d := shortest v.mantissa v.exponent
        if s.isPositional d.exponent then d.positional else d.exponential
    String.ofList (if v.negative then '-' :: body else body)

end Workflow.Decimal
