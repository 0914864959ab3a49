import Workflow.Expression.Token

/-!
# What can go wrong with an expression

A text may fail to be an expression, and an expression may have no value in a context.
-/
namespace Workflow

inductive TypeCause where
  | notNumeric (text : String) (op : BinaryOp)
  | notApplicable (op : BinaryOp) (kind : String)
  | nonFinite (result : Float)
  | unordered
  deriving Inhabited

def TypeCause.message : TypeCause → String
  | notNumeric text op => s!"string '{text}' is not numeric for '{op.symbol}'"
  | notApplicable op kind => s!"cannot apply '{op.symbol}' to {kind}"
  | nonFinite x => "non-finite result " ++ Decimal.Style.positional.write x
  | unordered => "cannot order NaN"

inductive ExpressionError where
  | malformed (text : String) (cause : Expression.SyntaxCause)
  | unknownIdentifier (name : String)
  | missingKey (path : String)
  | typeMismatch (cause : TypeCause)
  | divisionByZero
  | moduloByZero
  | overflow (op : BinaryOp)
  | tooDeep
  deriving Inhabited

namespace ExpressionError

def kind : ExpressionError → String
  | malformed .. => "Syntax"
  | unknownIdentifier _ => "UnknownIdentifier"
  | missingKey _ => "MissingKey"
  | typeMismatch _ => "Type"
  | divisionByZero => "DivisionByZero"
  | moduloByZero => "ModuloByZero"
  | overflow _ => "Overflow"
  | tooDeep => "TooDeep"

def message : ExpressionError → String
  | malformed text cause => s!"syntax error in '{text}': {cause.message}"
  | unknownIdentifier name => s!"unknown identifier '{name}' (paths must start with 'context')"
  | missingKey path => s!"missing context key: {path}"
  | typeMismatch cause => s!"type error: {cause.message}"
  | divisionByZero => "division by zero"
  | moduloByZero => "modulo by zero"
  | overflow op => s!"integer overflow in '{op.symbol}'"
  | tooDeep => s!"expression nests deeper than {Expression.maxNesting} levels"

end ExpressionError
end Workflow
