import Workflow.Command.Inspect
import Workflow.Run.Engine
import Workflow.Storage.Directory

/-!
# Running a document

The store is set up as the settings say, in the files. No plugins come with the program, so that
only steps that use the store can be run.
-/
namespace Workflow.Command

/-- The store that the settings describe, with the file of its trail. -/
def openStore (c : EngineConfig) (directory : Tree.Path) (now : Instant) :
    Attempt Tree Failure (Store Tree) := do
  let permissions ← Attempt.look fun _ =>
    let start : Permissions := ⟨c.permissions.enabled, []⟩
    (start.addAll .resource c.permissions.policies).mapError fun e =>
      ⟨"Invalid permission policy", [e.message]⟩
  match c.audit.logPath with
  | some path => (openTrail path).mapError (.ofFile s!"Failed to open audit log {path}")
  | none => pure ()
  return {
    data := .empty, history := [], permissions, schemas := .empty
    trail := .empty c.audit.maxEntries, now, ids := .since now, outside := ← get }
where
  /-- Opens the file of the trail. -/
  openTrail (path : String) : Attempt Tree FileError Unit :=
    if path.isEmpty then throw .notFound else Sink.openLines (Tree.resolve directory path)

def environmentOf (c : EngineConfig) (directory : Tree.Path) : Environment Tree where
  backend := some (Storage.directory (Tree.resolve directory c.storage.basePath))
  objects := some
    (ObjectStore.directory (Tree.resolve directory c.storage.binaryPath) c.storage.chunkSize)
  sink := c.audit.logPath.map fun path => .lines (Tree.resolve directory path)
  inlineThreshold := c.storage.inlineThreshold

def initialContext : Option String → Except Failure (Table Json)
  | none => .ok .empty
  | some text =>
    match Json.read? text with
    | none => .error ⟨"Invalid --context JSON", []⟩
    | some (.obj t) => .ok t
    | some v => .error ⟨s!"--context must be a JSON object, got {v.compact}", []⟩

/-- The program for a document: it has no plugins, and the role of its actor is in the settings. -/
def programOf (c : EngineConfig) (directory : Tree.Path) (d : PipelineDocument) :
    Program Tree Unit where
  document := d
  environment := environmentOf c directory
  plugins := .empty
  config := c.executor
  actor := .ofRole c.executor.actor

/-- What is written of runs: the live context if they succeed, and their trees if wanted. -/
def runOutput (r : Except RunError (Table Json)) (runs : List Progress) (showState : Bool) :
    String :=
  let context := r.toOption.map Json.obj
  let trees := if showState then some (.arr (runs.map Progress.toJson)) else none
  if context.isNone && trees.isNone then ""
  else (Json.ofFields [("context", context), ("execution_state", trees)]).pretty ++ "\n"

/-- Runs the pipeline of a name, or all that are enabled. -/
def execute (c : EngineConfig) (directory : Tree.Path) (now : Instant) (file : String)
    (pipeline context : Option String) (showState : Bool) : Attempt Tree Failure Report := do
  let store ← openStore c directory now
  let live ← Attempt.look fun _ => initialContext context
  let document ← Attempt.look fun files => loadDocument files directory file
  let p := programOf c directory document
  let (r, engine) := (pipeline.elim (Engine.runAll p) (Engine.run p)) (.start store () live)
  set engine.store.outside
  let output := runOutput r engine.runs showState
  match r with
  | .ok _ => return .done output (marked "*" s!"{engine.runs.length} pipeline run(s) completed")
  | .error e => return .failed output (.ofRun s!"Pipeline run failed for {file}" e)

end Workflow.Command
