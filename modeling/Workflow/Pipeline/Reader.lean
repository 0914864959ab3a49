import Workflow.Pipeline.Basic

/-!
# Pipelines from JSON

A step is read from the outside to the inside: its common fields, then what its type needs, then the
steps inside it. The first thing that is wrong is reported, with the name of the step it is found
in.
-/
namespace Workflow

inductive ReadError where
  | noPipelines
  | badPipeline (cause : DecodeError)
  | duplicatePipeline (name : String)
  | unknownStepType (step type : String)
  | badStep (step : String) (cause : DecodeError)
  | noPlugin (step : String)
  | cannotIterate (step type : String)
  deriving Inhabited

namespace PluginCall

def record : Record PluginCall :=
  PluginCall.mk <$> .optional "plugin" .text <*> .withDefault "config" .table .empty
    <*> .optional "input_key" .text <*> .optional "output_key" .text

end PluginCall

namespace StoreOperation

def known : List (String × Record StoreOperation) :=
  let ns := Record.required "namespace" Decoder.text
  let someNs := Record.optional "namespace" Decoder.text
  let key := Record.optional "key" Decoder.text
  [("merge", merge <$> ns <*> .required "values" .table
      <*> .withDefault "strategy" (.choice MergeStrategy.known) .overwrite),
    ("snapshot", snapshot <$> ns),
    ("restore", restore <$> .required "snapshot_id" .any),
    ("delete", delete <$> ns <*> key),
    ("save_to_storage", save <$> someNs),
    ("load_from_storage", load <$> someNs),
    ("delete_from_storage", deleteStored <$> ns <*> key)]

/-- Reads an operation from members, one of which names it. -/
def ofTable (t : Table Json) : Except DecodeError StoreOperation := do
  match t.get? "operation" with
  | none => throw (.missing "operation")
  | some v =>
    let record ← Decoder.tag known v
    record.ofTable (t.erase "operation")

/-- What stands beside the fields of an operation. -/
def outputRecord : Record (Option String) := .optional "output_key" .text

/-- Reads an operation and the key for its result from members. -/
def withOutput (t : Table Json) : Except DecodeError (StoreOperation × Option String) := do
  let outputKey ← outputRecord.ofTable t
  let op ← ofTable (outputRecord.others t)
  return (op, outputKey)

end StoreOperation

namespace Action

def defaultType : String := "plugin"

/-- Reads an action from the members of its step that are not common to all steps. -/
def ofTable (step type : String) (iterates : Bool) (t : Table Json) : Except ReadError Action := do
  let read (r : Record Action) : Except ReadError Action := (r.ofTable t).mapError (.badStep step)
  let path := Record.required "path" Decoder.text
  let value := Record.required "value" Decoder.any
  match type with
  | "plugin" =>
    let call ← (PluginCall.record.ofTable t).mapError (.badStep step)
    if !call.plugin.isSome && !iterates then throw (.noPlugin step)
    return plugin call
  | "conditional" => read (conditional <$> .required "condition" .text)
  | "jump" => read (jump <$> .required "target" .text <*> .optional "condition" .text)
  | "set_context" => read (setContext <$> path <*> value)
  | "load_context" =>
    read (loadContext <$> path <*> .optional "destination" .text <*> .optional "default" .any)
  | "append_context" => read (appendContext <$> path <*> value)
  | "save_context" => read (saveContext <$> .required "source" .text <*> path)
  | "context_operation" =>
    let (op, outputKey) ← (StoreOperation.withOutput t).mapError (.badStep step)
    return operate op outputKey
  | "break" => return leaveLoop
  | "continue" => return nextItem
  | _ => throw (.unknownStepType step type)

end Action

namespace Step

/-- The fields that all steps have in common. -/
structure Common where
  name : String
  type : Option String
  description : Option String
  iterate : Option String

/-- The common fields as a record. That `steps` is a list is checked with them. -/
def Common.record : Record Common :=
  (fun name type description iterate (_ : List Json) => Common.mk name type description iterate)
    <$> .required "name" .text <*> .optional "type" .text <*> .optional "description" .text
    <*> .optional "iterate" .text <*> .withDefault "steps" (.list .any) []

/-- The name by which a message calls the step that a value should be. -/
def nameOf (v : Json) : String := ((v.get? "name").bind Json.str?).getD "<unnamed>"

def shallow (v : Json) : Except ReadError Step := do
  let common ← (Common.record.decodeObject "struct RawStep" v).mapError (.badStep (nameOf v))
  let rest := match v with
    | .obj t => Common.record.others t
    | _ => .empty
  let type := common.type.getD Action.defaultType
  let action ← Action.ofTable common.name type common.iterate.isSome rest
  if common.iterate.isSome && action.isControl then
    throw (.cannotIterate common.name action.typeName)
  return ⟨common.name, common.description, common.iterate, action, []⟩

mutual

def ofJson : Json → Except ReadError Step
  | .obj ⟨members⟩ => do
    let step ← shallow (.obj ⟨members⟩)
    let steps ← ofMembers members
    return { step with steps }
  | v => shallow v

def ofMembers : List (String × Json) → Except ReadError (List Step)
  | [] => .ok []
  | (k, .arr items) :: rest => if k = "steps" then ofItems items else ofMembers rest
  | _ :: rest => ofMembers rest

def ofItems : List Json → Except ReadError (List Step)
  | [] => .ok []
  | v :: rest => do
    let step ← ofJson v
    let steps ← ofItems rest
    return step :: steps

end

end Step

namespace Pipeline

/-- A pipeline as a record, its steps still to be read. -/
def record : Record (Pipeline × List Json) :=
  (fun name description steps enabled mode schedule =>
    (⟨name, description, [], enabled, mode, schedule⟩, steps))
    <$> .required "name" .text <*> .optional "description" .text
    <*> .withDefault "steps" (.list .any) [] <*> .withDefault "enabled" .truth true
    <*> .withDefault "execution_mode" (.choice ExecutionMode.known) .sequential
    <*> .optional "schedule" .text

def ofJson (v : Json) : Except ReadError Pipeline := do
  let (pipeline, steps) ← (record.decode "struct RawPipeline" v).mapError .badPipeline
  let steps ← Step.ofItems steps
  return { pipeline with steps }

/-- Reads pipelines one after the other; each must have a new name. -/
def ofItems (names : List String) : List Json → Except ReadError (List Pipeline)
  | [] => .ok []
  | v :: rest => do
    let pipeline ← ofJson v
    if names.contains pipeline.name then throw (.duplicatePipeline pipeline.name)
    let pipelines ← ofItems (pipeline.name :: names) rest
    return pipeline :: pipelines

end Pipeline

def PipelineDocument.ofJson (v : Json) : Except ReadError PipelineDocument := do
  match (v.get? "pipelines").bind Json.arr? with
  | some items => return ⟨← Pipeline.ofItems [] items⟩
  | none => throw .noPipelines

end Workflow
