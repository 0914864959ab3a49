import Workflow.Expression.Parser
import Workflow.Json.Parts
import Workflow.Json.Printer
import Workflow.Expression.Arithmetic

/-!
# The value of an expression

Evaluation goes from left to right and stops at the first error. A plus sign between two values
joins texts if one of them is a string, and lists if both are.
-/
namespace Workflow

namespace Json

/-- Whether a value counts as true: `false`, null, zero and whatever is empty do not. -/
def truthy : Json → Bool
  | .bool b => b
  | .null => false
  | .num n => n.toFloat != 0
  | .str s => !s.isEmpty
  | .arr items => !items.isEmpty
  | .obj fields => !fields.isEmpty

end Json

namespace Expression

/-- The value at a path in a context. The empty path leads to the whole context. -/
def lookup (keys : List String) (context : Table Json) : Except ExpressionError Json :=
  match (Json.obj context).walk? keys with
  | some v => .ok v
  | none => .error (.missingKey (pathText keys))

def apply (op : BinaryOp) (a b : Json) : Except ExpressionError Json :=
  match op.precedence with
  | .comparison => (compareValues op a b).map .bool
  | _ =>
    match op, a, b with
    | .add, .str s, _ => .ok (.str (s ++ b.display))
    | .add, _, .str t => .ok (.str (a.display ++ t))
    | .add, .arr xs, .arr ys => .ok (.arr (xs ++ ys))
    | _, _, _ => do
      let x ← Operand.ofJson op a
      let y ← Operand.ofJson op b
      (arithmetic op x y).bind Operand.toJson

def eval (context : Table Json) : Expression → Except ExpressionError Json
  | literal v => .ok v
  | path keys => lookup keys context
  | negate e => (eval context e).bind negateValue
  | binary op l r => do
    let a ← eval context l
    let b ← eval context r
    apply op a b

def evaluate (text : String) (context : Table Json) : Except ExpressionError Json :=
  (parse text).bind (eval context)

/-- Whether the value of a text counts as true. -/
def evaluateTruth (text : String) (context : Table Json) : Except ExpressionError Bool :=
  (evaluate text context).map Json.truthy

end Expression
end Workflow
