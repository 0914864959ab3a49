import Workflow.Store.Path
import Workflow.Store.Merge

/-!
# Pipelines

A document holds pipelines, a pipeline holds steps, and a step may hold steps of its own: the body
of a loop, the guarded block of a condition, or a group that runs after the step's own action.
-/
namespace Workflow

/-- A call of a plugin. The plugin may be missing where a step only iterates. -/
structure PluginCall where
  plugin : Option String
  config : Table Json
  inputKey : Option String
  outputKey : Option String
  deriving Inhabited

namespace PluginCall

/-- The type and the name that a reference to a plugin consists of; a reference without a dot is a
name alone. -/
def splitReference (reference : String) : Option String × String :=
  match StorePath.splitDot? reference with
  | some (type, name) => (some type, name)
  | none => (none, reference)

/-- The type and the name of the plugin of a call. -/
def reference? (c : PluginCall) : Option (Option String × String) := c.plugin.map splitReference

end PluginCall

inductive StoreOperation where
  | merge (ns : String) (values : Table Json) (strategy : MergeStrategy)
  | snapshot (ns : String)
  | restore (snapshot : Json)
  | delete (ns : String) (key : Option String)
  | save (ns : Option String)
  | load (ns : Option String)
  | deleteStored (ns : String) (key : Option String)
  deriving Inhabited

def StoreOperation.name : StoreOperation → String
  | merge .. => "merge"
  | snapshot _ => "snapshot"
  | restore _ => "restore"
  | delete .. => "delete"
  | save _ => "save_to_storage"
  | load _ => "load_from_storage"
  | deleteStored .. => "delete_from_storage"

inductive Action where
  | plugin (call : PluginCall)
  | conditional (condition : String)
  | jump (target : String) (condition : Option String)
  | setContext (path : String) (value : Json)
  | loadContext (path : String) (destination : Option String) (default : Option Json)
  | appendContext (path : String) (value : Json)
  | saveContext (source path : String)
  | operate (operation : StoreOperation) (outputKey : Option String)
  | leaveLoop
  | nextItem
  deriving Inhabited

namespace Action

def typeName : Action → String
  | plugin _ => "plugin"
  | conditional _ => "conditional"
  | jump .. => "jump"
  | setContext .. => "set_context"
  | loadContext .. => "load_context"
  | appendContext .. => "append_context"
  | saveContext .. => "save_context"
  | operate .. => "context_operation"
  | leaveLoop => "break"
  | nextItem => "continue"

/-- Whether an action only directs the run and can have no loop of its own. -/
def isControl : Action → Bool
  | jump .. => true
  | leaveLoop => true
  | nextItem => true
  | _ => false

end Action

/-- A step. `iterate` is an expression for the list that the step runs over. -/
structure Step where
  name : String
  description : Option String
  iterate : Option String
  action : Action
  steps : List Step
  deriving Inhabited

def Step.isIterative (s : Step) : Bool := s.iterate.isSome

mutual

def Step.count : Step → Nat
  | ⟨_, _, _, _, steps⟩ => Step.countAll steps + 1

/-- The number of steps in a block, with those inside them. -/
def Step.countAll : List Step → Nat
  | [] => 0
  | s :: rest => s.count + Step.countAll rest

end

inductive ExecutionMode where
  | sequential
  deriving DecidableEq, Repr, Inhabited

namespace ExecutionMode

def known : List (String × ExecutionMode) := [("sequential", sequential)]

def toJson : ExecutionMode → Json
  | sequential => .str "sequential"

end ExecutionMode

/-- A pipeline. Its schedule is for others to interpret. -/
structure Pipeline where
  name : String
  description : Option String
  steps : List Step
  enabled : Bool
  mode : ExecutionMode
  schedule : Option String
  deriving Inhabited

structure PipelineDocument where
  pipelines : List Pipeline
  deriving Inhabited

def PipelineDocument.pipeline? (d : PipelineDocument) (name : String) : Option Pipeline :=
  d.pipelines.find? (fun p => p.name == name)

end Workflow
