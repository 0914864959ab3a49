import Workflow.Expression.Error
import Workflow.Store.Error
import Workflow.Run.Plugin

/-!
# What can go wrong in a run
-/
namespace Workflow

def Json.kindName : Json → String
  | .null => "null"
  | .bool _ => "a bool"
  | .num _ => "a number"
  | .str _ => "a string"
  | .arr _ => "a list"
  | .obj _ => "an object"

/-- Why a run fails. Most failures are those of a step. -/
inductive RunError where
  | pipelineNotFound (name : String)
  | cycleRejected (pipeline : String) (cycle : List String)
  | pluginNotFound (reference : String)
  | plugin (step reference : String) (cause : PluginError)
  | expression (step : String) (cause : ExpressionError)
  | badSnapshot (step : String) (id : Json)
  | notIterable (step : String) (found : Json)
  | unknownTarget (step target : String)
  | jumpLimit (step : String) (limit : Nat)
  | outsideLoop (step type : String)
  | store (step : String) (cause : StoreError)
  | badPath (step path : String)
  deriving Inhabited

namespace RunError

/-- The wording of an error in an expression of a step. -/
def expressionMessage (step cause : String) : String :=
  s!"expression error in step '{step}': {cause}"

/-- The wording of an error in the number of a snapshot. -/
def snapshotMessage (id : Json) : String :=
  s!"type error: snapshot_id must be a non-negative integer, got {id.compact}"

def message : RunError → String
  | pipelineNotFound name => s!"pipeline not found: {name}"
  | cycleRejected pipeline cycle =>
    s!"pipeline '{pipeline}' has a cycle: " ++ " -> ".intercalate cycle
  | pluginNotFound reference => s!"plugin not found: {reference}"
  | plugin step reference cause =>
    s!"plugin '{reference}' failed in step '{step}': {cause.message}"
  | expression step cause => expressionMessage step cause.message
  | badSnapshot step id => expressionMessage step (snapshotMessage id)
  | notIterable step found =>
    s!"iterate expression of step '{step}' produced {found.kindName}, expected a list"
  | unknownTarget step target => s!"step '{step}' jumps to unknown step '{target}'"
  | jumpLimit step limit => s!"jump limit of {limit} exceeded at step '{step}'"
  | outsideLoop step type => s!"'{type}' step '{step}' used outside a loop"
  | store step cause => s!"context error in step '{step}': {cause.message}"
  | badPath step path => s!"invalid context path '{path}' in step '{step}'"

end RunError
end Workflow
