import Workflow.Run.Action

/-!
# Running blocks of steps

A step runs its action and then the steps inside it, once or for each item of a list. A block runs
its steps from the first on, where a jump goes on at another step of the same block. Every run ends:
a step is a part of what encloses it, the items of a list are run one after the other, and a block
goes on either at a later step or after one more of a limited number of jumps.
-/
namespace Workflow.Program
variable {σ π : Type}

/-- A step in a block: its name, and what it does when its node is at the end of a way. It gives the
target of its jump, if it jumps. -/
structure Runner (σ π : Type) where
  name : String
  run : List Nat → RunAction σ π (Option String)

/-- Runs the steps of a block from a position on, unless a step has asked to leave the iteration. At
most `limit` jumps are taken in a whole run, so that an allowance of as many is never used up before
they are. -/
def runFrom (limit : Nat) (block : List (Runner σ π)) (way : List Nat) (allowance index : Nat) :
    RunAction σ π Unit := do
  if h : index < block.length then
    if (← get).request.isSome then return
    let step := block[index]
    match ← step.run (way ++ [index]) with
    | none => runFrom limit block way allowance (index + 1)
    | some target =>
      match block.findIdx? (fun s => s.name == target) with
      | none => throw (.unknownTarget step.name target)
      | some next =>
        modify (·.aim way index next)
        if _ : allowance = 0 ∨ limit < (← get).jumps then throw (.jumpLimit step.name limit)
        else
          modify (·.note (.jumped way index next))
          runFrom limit block way (allowance - 1) next
termination_by (allowance, block.length - index)

def runBlock (p : Program σ π) (block : List (Runner σ π)) (way : List Nat) :
    RunAction σ π Unit := do
  modify (·.note (.entered way))
  runFrom p.config.maxJumps block way p.config.maxJumps 0

/-- Runs a step with its node: it is running first, and then completed or failed. -/
def tracked (way : List Nat) (a : RunAction σ π α) : RunAction σ π α := do
  modify (·.note (.started way))
  mark way .markRunning
  let result ← tryCatch a fun e => do
    mark way fun now => Progress.markFailed now e.message
    throw e
  mark way .markCompleted
  return result

/-- Performs the action of a step, then runs the steps inside it. -/
def runBody (p : Program σ π) (step : String) (action : Action) (inside : List (Runner σ π))
    (way : List Nat) : RunAction σ π (Option String) := do
  let outcome ← perform p step action
  if outcome.descend && !inside.isEmpty then runBlock p inside way
  return outcome.jump

/-- The key of the live context under which an iteration finds its item. -/
def itemKey : String := "item"

/-- The live context after an iteration: what the iteration has made of it, except that the item is
the one from before. -/
def leaveIteration (outer inner : Table Json) : Table Json :=
  outer.union (inner.filter fun key _ => key != itemKey)

/-- Runs the body of a loop for an item. A jump of the step itself means nothing here. -/
def runIteration (body : RunAction σ π (Option String)) (item : Json) : RunAction σ π Unit :=
  fun s =>
    let (r, s') := body (s.bind itemKey item)
    (r.map (fun _ => ()), { s' with context := leaveIteration s.context s'.context })

/-- Sets the state of an iteration in the node at the end of a way. -/
def markIteration (way : List Nat) (index : Nat) (status : Status) : RunAction σ π Unit :=
  modify (·.mapNode way (.setIteration index status))

/-- What a step has asked for; with that the request is settled. -/
def takeRequest : RunAction σ π (Option LoopControl) := modifyGet fun s => (s.request, s.settle)

/-- Runs the body of a loop for one item after the other, as the innermost loop says which it is at.
That are at most `turns` items. -/
def runTurns (body : RunAction σ π (Option String)) (way : List Nat) : Nat → RunAction σ π Unit
  | 0 => pure ()
  | turns + 1 => do
    match (← get).currentItem? with
    | none => return
    | some (index, item) =>
      modify (·.note (.turned index))
      markIteration way index .running
      tryCatch (runIteration body item) fun e => do
        markIteration way index .failed
        throw e
      markIteration way index .completed
      if (← takeRequest) = some .leaveLoop then return
      modify .advance
      runTurns body way turns

/-- Does something inside one more loop, which is left again even after a failure. -/
def inLoop (way : List Nat) (frame : LoopFrame) (a : RunAction σ π Unit) : RunAction σ π Unit :=
  fun s =>
    let (r, s) := a (s.push way frame)
    (r, s.pop)

/-- Runs the body of a step for each item of the list that an expression gives. -/
def runLoop (step expression : String) (body : RunAction σ π (Option String)) (way : List Nat) :
    RunAction σ π Unit := do
  match ← evaluate step expression with
  | .arr items =>
    modify (·.mapNode way (.startIterations (items.map Iterations.label)))
    if items.isEmpty then return
    inLoop way ⟨step, items, 0⟩ (runTurns body way items.length)
  | found => throw (.notIterable step found)

/-- Runs a step once, or for each item of its list. -/
def runStep (p : Program σ π) (step : String) (iterate : Option String) (action : Action)
    (inside : List (Runner σ π)) (way : List Nat) : RunAction σ π (Option String) :=
  tracked way do
    let body := runBody p step action inside way
    match iterate with
    | none => body
    | some expression =>
      runLoop step expression body way
      return none

mutual

def runner (p : Program σ π) : Step → Runner σ π
  | ⟨name, _, iterate, action, steps⟩ =>
    ⟨name, runStep p name iterate action (runners p steps)⟩

def runners (p : Program σ π) : List Step → List (Runner σ π)
  | [] => []
  | s :: rest => runner p s :: runners p rest

end

end Workflow.Program
