import Workflow.Pipeline.Basic

/-!
# The control graph

The nodes of the graph are the steps of a document, by their names inside the names of all that
encloses them. An edge leads from each step to the one after it in its block, from a step to the
first step inside it, and from a jump to its target in the same block. Only jumps lead back, so a
cycle needs one.
-/
namespace Workflow

/-- A structural flaw of a block, which is named by its scope. -/
inductive GraphError where
  | duplicateStep (scope step : String)
  | unknownTarget (scope step target : String)
  deriving DecidableEq, Repr, Inhabited

def GraphError.message : GraphError → String
  | duplicateStep scope step => s!"duplicate step '{step}' in '{scope}'"
  | unknownTarget scope step target =>
    s!"step '{step}' in '{scope}' jumps to unknown step '{target}'"

structure Edge where
  source : String
  target : String
  deriving DecidableEq, Repr, Inhabited

/-- The graph of the transitions between steps. No node is listed twice; an edge may be. -/
structure ControlGraph where
  nodes : List String
  edges : List Edge
  errors : List GraphError
  deriving Inhabited

namespace ControlGraph

/-- What stands between the parts of a qualified name. -/
def separator : String := "::"

def qualify (scope name : String) : String := scope ++ separator ++ name

/-- The steps of a block from the first with a given name on. -/
def fromName (name : String) (block : List Step) : List Step :=
  block.dropWhile (fun s => s.name != name)

def jumpTarget? : Action → Option String
  | .jump target _ => some target
  | _ => none

/-- The edges that start at a step: to the next one, to the target of a jump, to the first step
inside it. -/
def stepEdges (scope : String) (block : List Step) (s : Step) (next : Option Step) : List Edge :=
  let source := qualify scope s.name
  let edgesTo (scope : String) (t : Option Step) : List Edge :=
    t.toList.map (fun t => ⟨source, qualify scope t.name⟩)
  edgesTo scope next
    ++ edgesTo scope ((jumpTarget? s.action).bind (fun target => (fromName target block).head?))
    ++ edgesTo source s.steps.head?

/-- One flaw for each step with the name of an earlier one. -/
def duplicates (scope : String) : List String → List Step → List GraphError
  | _, [] => []
  | seen, s :: rest =>
    if seen.contains s.name then .duplicateStep scope s.name :: duplicates scope seen rest
    else duplicates scope (s.name :: seen) rest

def jumpErrors (scope : String) (block : List Step) (s : Step) : List GraphError :=
  match jumpTarget? s.action with
  | some target =>
    if (fromName target block).isEmpty then [.unknownTarget scope s.name target] else []
  | none => []

mutual

/-- The names of the steps inside the steps of a block, with their blocks in order. -/
def innerNames (scope : String) : List Step → List String
  | [] => []
  | s :: rest => bodyNames scope s ++ innerNames scope rest

/-- The names of the steps inside a step: first those of its block, then those further inside. -/
def bodyNames (scope : String) : Step → List String
  | ⟨name, _, _, _, steps⟩ =>
    let inner := qualify scope name
    steps.map (fun s => qualify inner s.name) ++ innerNames inner steps

end

mutual

def blockEdges (scope : String) (block : List Step) : List Step → List Edge
  | [] => []
  | s :: rest =>
    stepEdges scope block s rest.head? ++ bodyEdges scope s ++ blockEdges scope block rest

def bodyEdges (scope : String) : Step → List Edge
  | ⟨name, _, _, _, steps⟩ => blockEdges (qualify scope name) steps steps

end

mutual

/-- The flaws of the jumps of a block, each with all flaws inside its step. -/
def blockErrors (scope : String) (block : List Step) : List Step → List GraphError
  | [] => []
  | s :: rest => jumpErrors scope block s ++ bodyErrors scope s ++ blockErrors scope block rest

def bodyErrors (scope : String) : Step → List GraphError
  | ⟨name, _, _, _, steps⟩ =>
    let inner := qualify scope name
    duplicates inner [] steps ++ blockErrors inner steps steps

end

def ofDocument (d : PipelineDocument) : ControlGraph where
  nodes := (d.pipelines.flatMap (fun p =>
    p.steps.map (fun s => qualify p.name s.name) ++ innerNames p.name p.steps)).eraseDups
  edges := d.pipelines.flatMap (fun p => blockEdges p.name p.steps p.steps)
  errors := d.pipelines.flatMap (fun p =>
    duplicates p.name [] p.steps ++ blockErrors p.name p.steps p.steps)

/-- The nodes that edges from a node lead to, in the order of the nodes. -/
def successors (g : ControlGraph) (node : String) : List String :=
  let targets := (g.edges.filter (fun e => e.source == node)).map Edge.target
  g.nodes.filter targets.contains

def adjacency (g : ControlGraph) : List (String × List String) :=
  g.nodes.map (fun n => (n, g.successors n))

/-- The nodes met so far and the cycles found so far. -/
structure Search where
  visited : List String
  cycles : List (List String)

/-- Visits a node and all that is reached from it for the first time, depth first. A successor on
the way from the start closes a cycle. No node is met twice on the way, so that the fuel, which
bounds its length, need not exceed the number of nodes. -/
def visit (g : ControlGraph) : Nat → List String → String → Search → Search
  | 0, _, _, s => s
  | fuel + 1, way, node, s =>
    let way := way ++ [node]
    (g.successors node).foldl (fun (s : Search) next =>
      if way.contains next then
        { s with cycles := s.cycles ++ [way.dropWhile (· != next) ++ [next]] }
      else if s.visited.contains next then s
      else visit g fuel way next s) { s with visited := node :: s.visited }

/-- The cycles that a depth-first search over all nodes finds, each as a walk from a node back to
itself. -/
def cycles (g : ControlGraph) : List (List String) :=
  (g.nodes.foldl (fun (s : Search) node =>
    if s.visited.contains node then s else g.visit g.nodes.length [] node s) ⟨[], []⟩).cycles

def cyclesIn (g : ControlGraph) (pipeline : String) : List (List String) :=
  let start := (pipeline ++ separator).toList
  g.cycles.filter (fun c => c.head?.any (fun node => start.isPrefixOf node.toList))

end ControlGraph
end Workflow
