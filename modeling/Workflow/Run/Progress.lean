import Workflow.Pipeline.Basic
import Workflow.Time.Instant
import Workflow.Json.Printer
import Workflow.Json.Parts

/-!
# The progress of a run

A tree with the shape of a pipeline records how far a run has come: a node for the pipeline, and one
for each step below the node of what encloses it. A node of a step that iterates also records its
iterations. Nodes are addressed by the positions of the steps that lead to them.
-/
namespace Workflow

inductive Status where
  | pending
  | running
  | completed
  | failed
  deriving DecidableEq, Repr, Inhabited

namespace Status

def known : List (String × Status) :=
  [("pending", pending), ("running", running), ("completed", completed), ("failed", failed)]

def name : Status → String
  | pending => "pending"
  | running => "running"
  | completed => "completed"
  | failed => "failed"

def toJson (s : Status) : Json := .str s.name

end Status

/-- The iterations of a step: what each is called and how far it has come. -/
structure Iterations where
  count : Nat
  statuses : List Status
  labels : List String
  deriving DecidableEq, Repr, Inhabited

namespace Iterations

def none : Iterations := ⟨0, [], []⟩

def start (labels : List String) : Iterations :=
  ⟨labels.length, List.replicate labels.length .pending, labels⟩

/-- Sets the state of one iteration, if there is one of this index. -/
def set (it : Iterations) (index : Nat) (status : Status) : Iterations :=
  { it with statuses := it.statuses.set index status }

def maxLabel : Nat := 40

/-- What the iteration of an item is called: the start of its text. -/
def label (item : Json) : String := String.ofList (item.display.toList.take maxLabel)

def record : Record Iterations :=
  Iterations.mk <$> .required "count" .count <*> .required "statuses" (.list (.choice Status.known))
    <*> .required "labels" (.list .text)

def toJson (it : Iterations) : Json :=
  .mkObj [("count", .nat it.count), ("statuses", .arr (it.statuses.map Status.toJson)),
    ("labels", .arr (it.labels.map .str))]

end Iterations

structure Progress where
  name : String
  status : Status
  startTime : Option Instant
  endTime : Option Instant
  error : Option String
  children : List Progress
  iterations : Option Iterations
  deriving Inhabited

namespace Progress

def pending (name : String) (children : List Progress) (iterations : Option Iterations) :
    Progress :=
  ⟨name, .pending, none, none, none, children, iterations⟩

mutual

def ofStep : Step → Progress
  | ⟨name, _, iterate, _, steps⟩ =>
    pending name (ofSteps steps) (iterate.map (fun _ => Iterations.none))

def ofSteps : List Step → List Progress
  | [] => []
  | s :: rest => ofStep s :: ofSteps rest

end

def ofPipeline (p : Pipeline) : Progress := pending p.name (ofSteps p.steps) none

def node? : List Nat → Progress → Option Progress
  | [], n => some n
  | i :: rest, n => (n.children[i]?).bind (node? rest)

/-- Changes the node at the end of a way, if there is one. -/
def update (f : Progress → Progress) : List Nat → Progress → Progress
  | [], n => f n
  | i :: rest, n => { n with children := n.children.modify i (update f rest) }

/-- The node at the start of its step; of an earlier run of it nothing but its iterations
remains. -/
def markRunning (now : Instant) (n : Progress) : Progress :=
  { n with status := .running, startTime := some now, endTime := none, error := none }

def markCompleted (now : Instant) (n : Progress) : Progress :=
  { n with status := .completed, endTime := some now }

def markFailed (now : Instant) (error : String) (n : Progress) : Progress :=
  { n with status := .failed, endTime := some now, error := some error }

def startIterations (labels : List String) (n : Progress) : Progress :=
  { n with iterations := some (.start labels) }

def setIteration (index : Nat) (status : Status) (n : Progress) : Progress :=
  { n with iterations := n.iterations.map (fun it => it.set index status) }

def timeJson (t : Option Instant) : Json := .ofOption (fun t => .str t.text) t

mutual

def toJson : Progress → Json
  | ⟨name, status, startTime, endTime, error, children, iterations⟩ =>
    .ofFields
      [("name", some (.str name)), ("status", some status.toJson),
        ("start_time", some (timeJson startTime)), ("end_time", some (timeJson endTime)),
        ("error", some (.ofOption .str error)),
        ("children", if children.isEmpty then none else some (.arr (listToJson children))),
        ("iterations", iterations.map Iterations.toJson)]

def listToJson : List Progress → List Json
  | [] => []
  | n :: rest => n.toJson :: listToJson rest

end

def decodeTime : Decoder Instant
  | .str s => (Instant.read s).mapError (fun flaw => .unreadable flaw.message)
  | v => .error (.wrongType v "an RFC 3339 formatted date and time string")

/-- A node as a record, where `child` reads the nodes below it. -/
def record (child : Decoder Progress) : Record Progress :=
  Progress.mk <$> .required "name" .text <*> .required "status" (.choice Status.known)
    <*> .possible "start_time" decodeTime <*> .possible "end_time" decodeTime
    <*> .possible "error" .text <*> .withDefault "children" (.list child) []
    <*> .optional "iterations" (Iterations.record.decode "struct IterationRecord")

/-- Reads a tree of at most so many levels. -/
def decodeWithin : Nat → Decoder Progress
  | 0, v => .error (.wrongType v "struct ExecutionStateNode")
  | n + 1, v => (record (decodeWithin n)).decode "struct ExecutionStateNode" v

def decode (v : Json) : Except DecodeError Progress := decodeWithin v.depth v

end Progress
end Workflow
