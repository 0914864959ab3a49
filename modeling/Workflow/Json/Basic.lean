import Workflow.Table
import Workflow.Decimal.Dyadic

/-!
# JSON values

Numbers are whole numbers of 64 bits, signed or unsigned, or finite doubles; the two kinds stay
apart, so that `1` and `1.0` are different values although some operations compare them by value.
The members of an object are a table, hence in the order of their keys.
-/
namespace Workflow

/-- A JSON number. Whole numbers range from `-2^63` to `2^64 - 1`, doubles are finite. -/
inductive Number where
  | int (i : Int)
  | float (x : Float)
  deriving Inhabited

namespace Number

/-- The least and the greatest integer of 64 bits with a sign, and the greatest without. -/
def minSigned : Int := -9223372036854775808
@[inherit_doc minSigned] def maxSigned : Int := 9223372036854775807
@[inherit_doc minSigned] def maxUnsigned : Int := 18446744073709551615

def isSigned (i : Int) : Bool := decide (minSigned ≤ i) && decide (i ≤ maxSigned)

/-- Whether an integer can stand in a JSON value. -/
def isWhole (i : Int) : Bool := decide (minSigned ≤ i) && decide (i ≤ maxUnsigned)

/-- The number as a signed integer of 64 bits, if it is one. -/
def signed? : Number → Option Int
  | .int i => if isSigned i then some i else none
  | .float _ => none

/-- The number as an unsigned integer of 64 bits, if it is one. -/
def unsigned? : Number → Option Nat
  | .int i => if 0 ≤ i then some i.toNat else none
  | .float _ => none

/-- The number as a double, rounded to the nearest one. -/
def toFloat : Number → Float
  | .int i => Decimal.nearestInt i
  | .float x => x

/-- Whether two numbers are of one kind and equal. -/
def same : Number → Number → Bool
  | .int i, .int j => i == j
  | .float x, .float y => x == y
  | _, _ => false

/-- The exact value of a number: a numerator over a positive denominator. -/
def fraction : Number → Int × Nat
  | .int i => (i, 1)
  | .float x =>
    let d := Decimal.Dyadic.ofFloat x
    let top : Int := d.mantissa * Nat.pow 2 d.exponent.toNat
    (if d.negative then 0 - top else top, Nat.pow 2 (-d.exponent).toNat)

def order (a b : Number) : Ordering :=
  compare (a.fraction.1 * b.fraction.2) (b.fraction.1 * a.fraction.2)

def equal (a b : Number) : Bool := a.order b == .eq

def isIntegral (a : Number) : Bool := a.fraction.1 % a.fraction.2 == 0

end Number

inductive Json where
  | null
  | bool (b : Bool)
  | num (n : Number)
  | str (s : String)
  | arr (items : List Json)
  | obj (fields : Table Json)
  deriving Inhabited

namespace Json

def int (i : Int) : Json := .num (.int i)

def nat (n : Nat) : Json := .num (.int n)

/-- A double as a value, unless it is infinite or no number. -/
def ofFloat? (x : Float) : Option Json := if x.isFinite then some (.num (.float x)) else none

/-- An object with the given members; the last member of a name wins. -/
def mkObj (members : List (String × Json)) : Json := .obj (Table.ofList members)

/-- A value for something that may be absent. -/
def ofOption (f : α → Json) : Option α → Json
  | none => .null
  | some a => f a

def get? : Json → String → Option Json
  | .obj fields, k => fields.get? k
  | _, _ => none

def str? : Json → Option String
  | .str s => some s
  | _ => none

def obj? : Json → Option (Table Json)
  | .obj fields => some fields
  | _ => none

def arr? : Json → Option (List Json)
  | .arr items => some items
  | _ => none

mutual

/-- Whether two values have the same structure, with numbers at the leaves that `alike` relates. -/
def agree (alike : Number → Number → Bool) : Json → Json → Bool
  | .null, .null => true
  | .bool a, .bool b => a == b
  | .num a, .num b => alike a b
  | .str a, .str b => a == b
  | .arr a, .arr b => agreeItems alike a b
  | .obj ⟨a⟩, .obj ⟨b⟩ => agreeMembers alike a b
  | _, _ => false

def agreeItems (alike : Number → Number → Bool) : List Json → List Json → Bool
  | [], [] => true
  | a :: as, b :: bs => agree alike a b && agreeItems alike as bs
  | _, _ => false

/-- Whether two lists of members agree in names and values. -/
def agreeMembers (alike : Number → Number → Bool) :
    List (String × Json) → List (String × Json) → Bool
  | [], [] => true
  | (k, a) :: as, (j, b) :: bs => k == j && agree alike a b && agreeMembers alike as bs
  | _, _ => false

end

/-- Whether two values are the same, numbers of different kinds being different. -/
def same (a b : Json) : Bool := agree Number.same a b

/-- Whether two values are equal, numbers by their value. -/
def equal (a b : Json) : Bool := agree Number.equal a b

end Json
end Workflow
