import Workflow.Json.Printer

/-!
# Expressions

An expression reads the live context of a run and computes a value. It is built from literals,
paths below the root `context`, unary minus and eleven binary operators; there is nothing else, so
an expression can read the context but change nothing.
-/
namespace Workflow

inductive BinaryOp where
  | eq | ne | lt | le | gt | ge
  | add | sub
  | mul | div | mod
  deriving DecidableEq, Repr, Inhabited

namespace BinaryOp

def symbol : BinaryOp → String
  | eq => "=="
  | ne => "!="
  | lt => "<"
  | le => "<="
  | gt => ">"
  | ge => ">="
  | add => "+"
  | sub => "-"
  | mul => "*"
  | div => "/"
  | mod => "%"

/-- The name of an operator where a message shows a token. -/
def label : BinaryOp → String
  | eq => "Eq"
  | ne => "Ne"
  | lt => "Lt"
  | le => "Le"
  | gt => "Gt"
  | ge => "Ge"
  | add => "Add"
  | sub => "Sub"
  | mul => "Mul"
  | div => "Div"
  | mod => "Mod"

end BinaryOp

/-- How tightly an operator binds. -/
inductive Precedence where
  | comparison
  | sum
  | product
  deriving DecidableEq, Repr

def BinaryOp.precedence : BinaryOp → Precedence
  | .eq | .ne | .lt | .le | .gt | .ge => .comparison
  | .add | .sub => .sum
  | .mul | .div | .mod => .product

/-- An expression. A path lists the keys below the root. -/
inductive Expression where
  | literal (value : Json)
  | path (keys : List String)
  | negate (operand : Expression)
  | binary (op : BinaryOp) (left right : Expression)
  deriving Inhabited

namespace Expression

def contextRoot : String := "context"

/-- The greatest depth of an expression. Each pair of parentheses, each unary minus and each
operator of a chain adds one level. -/
def maxNesting : Nat := 64

def pathText (keys : List String) : String := ".".intercalate (contextRoot :: keys)

end Expression
end Workflow
