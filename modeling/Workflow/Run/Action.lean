import Workflow.Run.State
import Workflow.Store.Keys
import Workflow.Store.Durable

/-!
# What the actions of steps do
-/
namespace Workflow.Program
variable {σ π : Type}

def stepConfig (step reference : String) (call : PluginCall) (config : Table Json) : Table Json :=
  .ofList
    ([("name", .str step), ("type", .str (Action.plugin call).typeName), ("plugin", .str reference),
        ("config", .obj config)]
      ++ (call.inputKey.map (fun k => ("input_key", .str k))).toList
      ++ (call.outputKey.map (fun k => ("output_key", .str k))).toList)

/-- Runs a plugin on the live context. What it keeps for itself is kept even if it fails. -/
def runPlugin (step reference : String) (plugin : Plugin π) (config : Table Json) :
    RunAction σ π (Table Json) := fun s =>
  let (r, memory) := plugin.run config s.context s.memory
  (r.mapError (.plugin step reference), { s.note (.called reference) with memory })

/-- Calls the plugin of a reference. Its output goes under a key of the live context, or directly
into it. -/
def callPlugin (p : Program σ π) (step reference : String) (call : PluginCall) :
    RunAction σ π Unit := do
  match p.plugins.resolve? (PluginCall.splitReference reference) with
  | none => throw (.pluginNotFound reference)
  | some plugin =>
    let config ← resolveTable step call.config
    let output ← runPlugin step reference plugin (stepConfig step reference call config)
    match call.outputKey with
    | some key => modify (·.bind key (.obj output))
    | none => modify (·.bindAll output)

def setValue (p : Program σ π) (step : String) (path : StorePath) (v : Json) :
    RunAction σ π Unit := do
  let _ ← onStore step (Store.set p.environment p.actor path.ns path.key v .default)

/-- Loads a value into the live context, or the default if there is none. -/
def loadValue (p : Program σ π) (step : String) (path : StorePath) (destination : Option String)
    (default : Option Json) : RunAction σ π Unit := do
  let found ← onStore step (Store.read p.environment p.actor path.ns path.key)
  let v ← match found, default with
    | some v, _ => pure v
    | none, some d => resolve step d
    | none, none => throw (.store step (.notFound path))
  modify (·.bind (destination.getD path.key) v)

/-- The expression for what a source names in the live context, which a source may but need not
begin with. -/
def sourceExpression (source : String) : String :=
  let root := Expression.contextRoot ++ "."
  if root.toList.isPrefixOf source.toList then source else root ++ source

def snapshotId (step : String) (v : Json) : RunAction σ π Nat :=
  match v with
  | .num (.int i) => if 0 ≤ i then pure i.toNat else throw (.badSnapshot step v)
  | _ => throw (.badSnapshot step v)

/-- Does a direct operation on the store, and gives its result. -/
def operate (p : Program σ π) (step : String) : StoreOperation → RunAction σ π Json
  | .merge ns values strategy => do
    let values ← resolveTable step values
    let conflicts ← onStore step (Store.merge p.environment p.actor ns values strategy)
    return .obj conflicts
  | .snapshot ns => do
    return .nat (← onStore step (Store.snapshot p.environment p.actor ns))
  | .restore id => do
    let id ← snapshotId step (← resolve step id)
    return .bool (← onStore step (Store.restore p.environment p.actor id))
  | .delete ns key => do
    return .bool (← onStore step (Store.delete p.environment p.actor ns key))
  | .save ns => do
    return .bool (← onStore step (Store.save p.environment p.actor ns))
  | .load ns => do
    return .bool (← onStore step (Store.load p.environment p.actor ns))
  | .deleteStored ns key => do
    return .bool (← onStore step (Store.deleteStored p.environment p.actor ns key))

/-- Asks to leave the innermost loop, or its present iteration. -/
def requestControl (step type : String) (control : LoopControl) : RunAction σ π Unit := do
  if (← get).frames.isEmpty then throw (.outsideLoop step type)
  modify (·.ask control)

/-- What the action of a step leads to: a jump, and whether the steps inside the step are run. -/
structure Outcome where
  jump : Option String
  descend : Bool

/-- The steps inside are run, and then the step after this one. -/
def Outcome.proceed : Outcome := ⟨none, true⟩

def perform (p : Program σ π) (step : String) (action : Action) : RunAction σ π Outcome := do
  match action with
  | .plugin call =>
    match call.plugin with
    | some reference => callPlugin p step reference call
    | none => pure ()
    return .proceed
  | .conditional condition => return ⟨none, ← holds step condition⟩
  | .jump target none => return ⟨some target, true⟩
  | .jump target (some condition) =>
    return ⟨if ← holds step condition then some target else none, true⟩
  | .setContext path v =>
    let path ← storePath step path
    setValue p step path (← resolve step v)
    return .proceed
  | .loadContext path destination default =>
    loadValue p step (← storePath step path) destination default
    return .proceed
  | .appendContext path v =>
    let path ← storePath step path
    let v ← resolve step v
    let _ ← onStore step (Store.append p.environment p.actor path.ns path.key v)
    return .proceed
  | .saveContext source path =>
    let path ← storePath step path
    setValue p step path (← evaluate step (sourceExpression source))
    return .proceed
  | .operate op outputKey =>
    let result ← operate p step op
    match outputKey with
    | some key => modify (·.bind key result)
    | none => pure ()
    return .proceed
  | .leaveLoop =>
    requestControl step action.typeName .leaveLoop
    return ⟨none, false⟩
  | .nextItem =>
    requestControl step action.typeName .nextItem
    return ⟨none, false⟩

end Workflow.Program
