import Workflow.Pipeline.Basic

/-!
# Pipelines as JSON

What an action needs stands beside its type, in the object of its step. Fields that are absent are
left out.
-/
namespace Workflow

def textField (name : String) (value : Option String) : String × Option Json :=
  (name, value.map .str)

namespace PluginCall

def fields (c : PluginCall) : List (String × Option Json) :=
  [textField "plugin" c.plugin,
    ("config", if c.config.isEmpty then none else some (.obj c.config)),
    textField "input_key" c.inputKey,
    textField "output_key" c.outputKey]

end PluginCall

namespace StoreOperation

def fields (op : StoreOperation) : List (String × Option Json) :=
  textField "operation" (some op.name) ::
  match op with
  | merge ns values strategy =>
    [textField "namespace" (some ns), ("values", some (.obj values)),
      ("strategy", some strategy.toJson)]
  | snapshot ns => [textField "namespace" (some ns)]
  | restore id => [("snapshot_id", some id)]
  | delete ns key => [textField "namespace" (some ns), textField "key" key]
  | save ns => [textField "namespace" ns]
  | load ns => [textField "namespace" ns]
  | deleteStored ns key => [textField "namespace" (some ns), textField "key" key]

end StoreOperation

namespace Action

def fields : Action → List (String × Option Json)
  | plugin call => call.fields
  | conditional condition => [textField "condition" (some condition)]
  | jump target condition => [textField "target" (some target), textField "condition" condition]
  | setContext path value => [textField "path" (some path), ("value", some value)]
  | loadContext path destination default =>
    [textField "path" (some path), textField "destination" destination, ("default", default)]
  | appendContext path value => [textField "path" (some path), ("value", some value)]
  | saveContext source path => [textField "source" (some source), textField "path" (some path)]
  | operate op outputKey => op.fields ++ [textField "output_key" outputKey]
  | leaveLoop => []
  | nextItem => []

end Action

mutual

def Step.toJson : Step → Json
  | ⟨name, description, iterate, action, steps⟩ =>
    .ofFields
      ([textField "name" (some name), textField "description" description,
        textField "iterate" iterate, textField "type" (some action.typeName)]
        ++ action.fields
        ++ [("steps", if steps.isEmpty then none else some (.arr (Step.listToJson steps)))])

def Step.listToJson : List Step → List Json
  | [] => []
  | s :: rest => s.toJson :: Step.listToJson rest

end

def Pipeline.toJson (p : Pipeline) : Json :=
  .ofFields
    [textField "name" (some p.name), textField "description" p.description,
      ("steps", some (.arr (Step.listToJson p.steps))), ("enabled", some (.bool p.enabled)),
      ("execution_mode", some p.mode.toJson), textField "schedule" p.schedule]

def PipelineDocument.toJson (d : PipelineDocument) : Json :=
  .mkObj [("pipelines", .arr (d.pipelines.map Pipeline.toJson))]

end Workflow
