import Workflow.Config.Basic
import Workflow.Expression.Template
import Workflow.Run.Error
import Workflow.Run.Progress
import Workflow.Store.Basic

/-!
# The state of a run

A run works on the store, on what the plugins keep for themselves, and on the live context. It knows
the loops that it is in, the innermost first, and whether a step has asked to leave an iteration. It
also keeps what it has written to the live context, and a log of what it does: steps and blocks
appear there by the ways to their nodes, and the steps between which a jump leads by their positions
in the block.
-/
namespace Workflow

/-- How a step asks to leave the iteration that it is in. -/
inductive LoopControl where
  | leaveLoop
  | nextItem
  deriving DecidableEq, Repr, Inhabited

inductive Event where
  | entered (block : List Nat)
  | started (step : List Nat)
  | called (reference : String)
  | stored
  | opened (loop : List Nat) (count : Nat)
  | turned (index : Nat)
  | requested (control : LoopControl)
  | settled (control : LoopControl)
  | closed
  | aimed (block : List Nat) (source target : Nat)
  | jumped (block : List Nat) (source target : Nat)
  deriving DecidableEq, Repr, Inhabited

/-- What a run has at its disposal. -/
structure Program (σ π : Type) where
  document : PipelineDocument
  environment : Environment σ
  plugins : Registry (Plugin π)
  config : ExecutorConfig
  actor : Actor

/-- A loop that is being run: the items it runs over and which of them it is at. -/
structure LoopFrame where
  step : String
  items : List Json
  index : Nat
  deriving Inhabited

/-- The state of a run. Its log begins with what the run has done last, and its writes with what it
has put into the live context last. -/
structure RunState (σ π : Type) where
  store : Store σ
  memory : π
  context : Table Json
  writes : List (String × Json)
  frames : List LoopFrame
  request : Option LoopControl
  progress : Progress
  jumps : Nat
  log : List Event

abbrev RunAction (σ π α : Type) := Attempt (RunState σ π) RunError α

namespace RunState
variable {σ π : Type}

def storePart : Part (RunState σ π) (Store σ) :=
  ⟨RunState.store, fun store s => { s with store }⟩

/-- The state with one more event in its log. -/
def note (event : Event) (s : RunState σ π) : RunState σ π := { s with log := event :: s.log }

/-- The state with another node at the end of a way. -/
def mapNode (way : List Nat) (f : Progress → Progress) (s : RunState σ π) : RunState σ π :=
  { s with progress := s.progress.update f way }

/-- The state with the node at the end of a way changed at the present time. -/
def stamp (way : List Nat) (f : Instant → Progress → Progress) (s : RunState σ π) :
    RunState σ π :=
  s.mapNode way (f s.store.now)

/-- The state with a new value in the live context. -/
def bind (key : String) (v : Json) (s : RunState σ π) : RunState σ π :=
  { s with context := s.context.insert key v, writes := (key, v) :: s.writes }

/-- The state with all values of a table in the live context. -/
def bindAll (values : Table Json) (s : RunState σ π) : RunState σ π :=
  { s with
    context := s.context.union values
    writes := values.entries.reverse ++ s.writes }

/-- The state after a request to leave an iteration. -/
def ask (control : LoopControl) (s : RunState σ π) : RunState σ π :=
  { s.note (.requested control) with request := some control }

/-- The state after a request, if there is one, has been met. -/
def settle (s : RunState σ π) : RunState σ π :=
  match s.request with
  | some control => { s.note (.settled control) with request := none }
  | none => s

def aim (way : List Nat) (source target : Nat) (s : RunState σ π) : RunState σ π :=
  { s.note (.aimed way source target) with jumps := s.jumps + 1 }

def push (way : List Nat) (frame : LoopFrame) (s : RunState σ π) : RunState σ π :=
  { s.note (.opened way frame.items.length) with frames := frame :: s.frames }

def pop (s : RunState σ π) : RunState σ π := { s.note .closed with frames := s.frames.drop 1 }

/-- The item that the innermost loop is at, with its index. -/
def currentItem? (s : RunState σ π) : Option (Nat × Json) :=
  s.frames.head?.bind fun f => f.items[f.index]?.map fun item => (f.index, item)

/-- The state with the innermost loop at its next item. -/
def advance (s : RunState σ π) : RunState σ π :=
  { s with frames := s.frames.modifyHead fun f => { f with index := f.index + 1 } }

end RunState

namespace Program
variable {σ π : Type}

/-- Marks the node at the end of a way, at the present time. -/
def mark (way : List Nat) (f : Instant → Progress → Progress) : RunAction σ π Unit :=
  modify (·.stamp way f)

/-- The value of an expression in the live context. -/
def evaluate (step expression : String) : RunAction σ π Json :=
  Attempt.look fun s => (Expression.evaluate expression s.context).mapError (.expression step)

/-- Whether the value of an expression counts as true. -/
def holds (step expression : String) : RunAction σ π Bool := do
  return (← evaluate step expression).truthy

def resolve (step : String) (v : Json) : RunAction σ π Json :=
  Attempt.look fun s => (Expression.resolve s.context v).mapError (.expression step)

def resolveTable (step : String) (t : Table Json) : RunAction σ π (Table Json) :=
  return ((← resolve step (.obj t)).obj?).getD .empty

def storePath (step path : String) : RunAction σ π StorePath :=
  Attempt.look fun _ =>
    match StorePath.parse? path with
    | some p => .ok p
    | none => .error (.badPath step path)

def onStore (step : String) (a : StoreAction σ α) : RunAction σ π α := do
  modify (·.note .stored)
  (RunState.storePart.lift a).mapError (.store step)

end Program
end Workflow
