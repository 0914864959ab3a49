import Workflow.Expression.Error

/-!
# Numbers in expressions

Operands become signed integers of 64 bits or doubles: booleans count as zero and one, and strings
are read as numerals. Two integers are computed with exactly, or the result is refused; as soon as
one operand is a double both are.
-/
namespace Workflow.Expression

def kindName : Json → String
  | .null => "null"
  | .bool _ => "bool"
  | .num _ => "number"
  | .str _ => "string"
  | .arr _ => "list"
  | .obj _ => "object"

/-- A number as an operand: an integer beyond the signed range becomes a double. -/
def Operand.ofNumber (n : Number) : Number :=
  match n.signed? with
  | some i => .int i
  | none => .float n.toFloat

/-- The numeral that a text consists of, blanks around it aside. -/
def Operand.ofText? (s : String) : Option Number :=
  let cs := Text.trim s.toList
  match (Decimal.readInt? cs).filter Number.isSigned with
  | some i => some (.int i)
  | none => (Decimal.readFloat? cs).map .float

def Operand.ofJson (op : BinaryOp) : Json → Except ExpressionError Number
  | .num n => .ok (Operand.ofNumber n)
  | .bool b => .ok (.int (if b then 1 else 0))
  | .str s =>
    match Operand.ofText? s with
    | some n => .ok n
    | none => .error (.typeMismatch (.notNumeric s op))
  | v => .error (.typeMismatch (.notApplicable op (kindName v)))

/-- The value of a result; only finite results have one. -/
def Operand.toJson : Number → Except ExpressionError Json
  | .int i => .ok (.int i)
  | .float x =>
    match Json.ofFloat? x with
    | some v => .ok v
    | none => .error (.typeMismatch (.nonFinite x))

/-- An exact result, or its refusal when 64 bits do not hold it. -/
def checked (op : BinaryOp) (i : Int) : Except ExpressionError Number :=
  if Number.isSigned i then .ok (.int i) else .error (.overflow op)

def divide (a b : Number) : Except ExpressionError Number :=
  if b.toFloat == 0 then .error .divisionByZero else .ok (.float (a.toFloat / b.toFloat))

/-- The remainder with the sign of the divisor. The least integer over minus one is refused like
the quotient, which 64 bits do not hold. -/
def remainder (a b : Number) : Except ExpressionError Number :=
  match a, b with
  | _, .int 0 => .error .moduloByZero
  | .int i, .int j =>
    if Number.isSigned (Int.tdiv i j) then
      let r := Int.tmod i j
      .ok (.int (if r ≠ 0 ∧ (decide (r < 0) != decide (j < 0)) then r + j else r))
    else .error (.overflow .mod)
  | _, _ =>
    let x := a.toFloat
    let y := b.toFloat
    if y == 0 then .error .moduloByZero else .ok (.float (x - y * (x / y).floor))

/-- An operation on two integers or on two doubles. -/
def combine (op : BinaryOp) (onInts : Int → Int → Int) (onFloats : Float → Float → Float)
    (a b : Number) : Except ExpressionError Number :=
  match a, b with
  | .int i, .int j => checked op (onInts i j)
  | _, _ => .ok (.float (onFloats a.toFloat b.toFloat))

/-- An arithmetic operator on numbers. Comparisons are no arithmetic and give their left operand. -/
def arithmetic (op : BinaryOp) (a b : Number) : Except ExpressionError Number :=
  match op with
  | .add => combine .add (· + ·) (· + ·) a b
  | .sub => combine .sub (· - ·) (· - ·) a b
  | .mul => combine .mul (· * ·) (· * ·) a b
  | .div => divide a b
  | .mod => remainder a b
  | _ => .ok a

def negateValue (v : Json) : Except ExpressionError Json :=
  match Operand.ofJson .sub v with
  | .error e => .error e
  | .ok (.int i) => (checked .sub (-i)).bind Operand.toJson
  | .ok (.float x) => Operand.toJson (.float (-x))

/-- Whether two values are equal: numbers by value, all others by structure. -/
def equalValues : Json → Json → Bool
  | .num a, .num b =>
    match a.signed?, b.signed? with
    | some i, some j => i == j
    | _, _ => a.toFloat == b.toFloat
  | a, b => a.same b

/-- The order of two doubles; there is none if one of them is no number. -/
def orderFloats (x y : Float) : Option Ordering :=
  if x < y then some .lt else if x == y then some .eq else if y < x then some .gt else none

/-- The order of two values: of strings by their characters, of all others as numbers. -/
def orderValues (op : BinaryOp) (a b : Json) : Except ExpressionError Ordering :=
  match a, b with
  | .str s, .str t => .ok (compare s t)
  | _, _ => do
    let x ← Operand.ofJson op a
    let y ← Operand.ofJson op b
    match x, y with
    | .int i, .int j => return compare i j
    | _, _ =>
      match orderFloats x.toFloat y.toFloat with
      | some o => return o
      | none => throw (.typeMismatch .unordered)

/-- A comparison of two values. Arithmetic operators compare nothing and never hold. -/
def compareValues (op : BinaryOp) (a b : Json) : Except ExpressionError Bool :=
  match op with
  | .eq => .ok (equalValues a b)
  | .ne => .ok (!equalValues a b)
  | .lt => (orderValues op a b).map (· == .lt)
  | .le => (orderValues op a b).map (· != .gt)
  | .gt => (orderValues op a b).map (· == .gt)
  | .ge => (orderValues op a b).map (· != .lt)
  | _ => .ok false

end Workflow.Expression
