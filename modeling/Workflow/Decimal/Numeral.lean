import Workflow.Decimal.Dyadic

/-!
# Numerals in free text

What text stands for a number where a number is wanted: an integer with an optional sign, or a
floating-point numeral, which may leave out the digits on one side of its point, may have an
exponent, and may name infinity or the value that is no number. A floating-point numeral means the
double nearest to it.
-/
namespace Workflow.Decimal

/-- The number that a list of decimal digits writes. -/
def natOfDigits (ds : List Char) : Nat := ds.foldl (fun n c => n * 10 + (c.toNat - '0'.toNat)) 0

/-- A sign that may be left out, and the text after it. -/
def readSign (cs : List Char) : Bool × List Char :=
  match cs with
  | '-' :: rest => (true, rest)
  | '+' :: rest => (false, rest)
  | _ => (false, cs)

/-- The number of a text that consists of digits, at least one. -/
def readNat? (cs : List Char) : Option Nat :=
  if cs.isEmpty || !cs.all Char.isDigit then none else some (natOfDigits cs)

def readInt? (cs : List Char) : Option Int :=
  let (negative, rest) := readSign cs
  (readNat? rest).map (fun (n : Nat) => if negative then -(n : Int) else n)

/-- An unsigned integer; a plus sign may stand in front. -/
def readUnsigned? (cs : List Char) : Option Nat :=
  match cs with
  | '+' :: rest => readNat? rest
  | _ => readNat? cs

/-- The exponent part of a numeral, if the text is one or is empty. -/
def readExponent? (cs : List Char) : Option Int :=
  match cs with
  | [] => some 0
  | c :: rest => if c = 'e' ∨ c = 'E' then readInt? rest else none

/-- A floating-point numeral of digits without a sign. -/
def readDigits? (cs : List Char) : Option Float :=
  let whole := cs.takeWhile Char.isDigit
  let rest := cs.dropWhile Char.isDigit
  let (fraction, rest) :=
    match rest with
    | '.' :: after => (after.takeWhile Char.isDigit, after.dropWhile Char.isDigit)
    | _ => ([], rest)
  if whole.isEmpty && fraction.isEmpty then none
  else
    (readExponent? rest).map (fun e =>
      nearestScientific (natOfDigits (whole ++ fraction)) (e - fraction.length))

def readFloat? (cs : List Char) : Option Float :=
  let (negative, rest) := readSign cs
  let name := String.ofList (rest.map Char.toLower)
  let magnitude :=
    if name = "inf" ∨ name = "infinity" then some (Float.ofBits 0x7ff0000000000000)
    else if name = "nan" then some (Float.ofBits 0x7ff8000000000000)
    else readDigits? rest
  magnitude.map (fun x => if negative then -x else x)

end Workflow.Decimal
