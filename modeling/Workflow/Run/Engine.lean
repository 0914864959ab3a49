import Workflow.Run.Block
import Workflow.Pipeline.Graph

/-!
# Running pipelines

An engine runs pipelines one after the other. The live context and the store go on from one run to
the next, and every run leaves a tree of its progress.
-/
namespace Workflow

/-- An engine between two runs, with the trees of its runs, oldest first. -/
structure Engine (σ π : Type) where
  store : Store σ
  memory : π
  context : Table Json
  frames : List LoopFrame
  runs : List Progress

abbrev EngineAction (σ π α : Type) := Attempt (Engine σ π) RunError α

namespace Engine
variable {σ π : Type}

def start (store : Store σ) (memory : π) (context : Table Json) : Engine σ π :=
  ⟨store, memory, context, [], []⟩

def storePart : Part (Engine σ π) (Store σ) := ⟨Engine.store, fun store e => { e with store }⟩

def loopDepth (e : Engine σ π) : Nat := e.frames.length

def beginRun (e : Engine σ π) (pipeline : Pipeline) : RunState σ π where
  store := e.store
  memory := e.memory
  context := e.context
  writes := []
  frames := []
  request := none
  progress := (Progress.ofPipeline pipeline).markRunning e.store.now
  jumps := 0
  log := []

/-- The run of a pipeline: how it ends, and in which state. -/
def execution (p : Program σ π) (pipeline : Pipeline) (e : Engine σ π) :
    Except RunError Unit × RunState σ π :=
  p.runBlock (p.runners pipeline.steps) [] (e.beginRun pipeline)

def finish (now : Instant) (r : Except RunError Unit) (tree : Progress) : Progress :=
  match r with
  | .ok _ => tree.markCompleted now
  | .error cause => tree.markFailed now cause.message

/-- Why a pipeline is not run at all: it has a cycle, and cycles are not allowed. -/
def refusal (p : Program σ π) (pipeline : Pipeline) : Option RunError :=
  if p.config.rejectCycles then
    ((ControlGraph.ofDocument p.document).cyclesIn pipeline.name).head?.map
      (.cycleRejected pipeline.name)
  else none

def runPipeline (p : Program σ π) (pipeline : Pipeline) : EngineAction σ π Unit := fun e =>
  match refusal p pipeline with
  | some cause => (.error cause, e)
  | none =>
    let (r, s) := execution p pipeline e
    (r, { e with
      store := s.store, memory := s.memory, context := s.context, frames := []
      runs := e.runs ++ [finish s.store.now r s.progress] })

/-- Runs the pipeline of a name, and gives the live context after it. -/
def run (p : Program σ π) (name : String) : EngineAction σ π (Table Json) := do
  match p.document.pipeline? name with
  | none => throw (.pipelineNotFound name)
  | some pipeline =>
    runPipeline p pipeline
    return (← get).context

/-- Runs the pipelines of the given names one after the other, up to the first that fails. -/
def runNames (p : Program σ π) : List String → EngineAction σ π (Table Json)
  | [] => return (← get).context
  | name :: rest => do
    let _ ← run p name
    runNames p rest

def runAll (p : Program σ π) : EngineAction σ π (Table Json) :=
  runNames p ((p.document.pipelines.filter Pipeline.enabled).map Pipeline.name)

end Engine
end Workflow
