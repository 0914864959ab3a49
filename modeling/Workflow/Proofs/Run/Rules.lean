import Workflow.Proofs.Pipeline.Blocks
import Workflow.Proofs.Run.Perform
import Workflow.Run.Block

/-!
# The rules of a run

A run is made of calls: for a block, for the rest of a block from a position on, for a step, for the
body of a step, for its loop and for the turns of the loop. The rules tell how a call ends by how
the calls end that it makes, so that a derivation is the tree of all calls below a call. They follow
the program step by step: a loop is driven by the innermost frame, and nothing bounds the calls but
the limit on jumps.
-/
namespace Workflow
variable {σ π : Type}

/-- A part of a run that is done by a call of its own. -/
inductive Call where
  | block (steps : List Step) (way : List Nat)
  | rest (steps : List Step) (way : List Nat) (index : Nat)
  | step (step : Step) (way : List Nat)
  | body (step : Step) (way : List Nat)
  | loop (step : Step) (expression : String) (way : List Nat)
  | turns (step : Step) (way : List Nat)

namespace RunState

def begin (way : List Nat) (s : RunState σ π) : RunState σ π :=
  (s.note (.started way)).stamp way .markRunning

def finish (way : List Nat) (r : Except RunError (Option String)) (s : RunState σ π) :
    RunState σ π :=
  s.stamp way fun now => match r with
    | .ok _ => .markCompleted now
    | .error e => .markFailed now e.message

def startLoop (way : List Nat) (items : List Json) (s : RunState σ π) : RunState σ π :=
  s.mapNode way (.startIterations (items.map Iterations.label))

/-- The number of items that the innermost loop has not left behind. -/
def remaining (s : RunState σ π) : Nat :=
  match s.frames with
  | f :: _ => f.items.length - f.index
  | [] => 0

def beginTurn (way : List Nat) (index : Nat) (item : Json) (s : RunState σ π) : RunState σ π :=
  ((s.note (.turned index)).mapNode way (.setIteration index .running)).bind Program.itemKey item

/-- The state at the end of an iteration, where `outer` was the live context before it. -/
def endTurn (way : List Nat) (index : Nat) (status : Status) (outer : Table Json)
    (s : RunState σ π) : RunState σ π :=
  { s with context := Program.leaveIteration outer s.context }.mapNode way
    (.setIteration index status)

end RunState

/-- How calls end, and in which state. -/
inductive Runs (p : Program σ π) :
    Call → RunState σ π → Except RunError (Option String) → RunState σ π → Prop
  | block {steps way s r t} : Runs p (.rest steps way 0) (s.note (.entered way)) r t →
      Runs p (.block steps way) s r t
  | finished {steps way i s} : steps[i]? = none → Runs p (.rest steps way i) s (.ok none) s
  | skipped {steps way i s step} : steps[i]? = some step → s.request ≠ none →
      Runs p (.rest steps way i) s (.ok none) s
  | failed {steps way i s step e t} : steps[i]? = some step → s.request = none →
      Runs p (.step step (way ++ [i])) s (.error e) t →
      Runs p (.rest steps way i) s (.error e) t
  | next {steps way i s step t r u} : steps[i]? = some step → s.request = none →
      Runs p (.step step (way ++ [i])) s (.ok none) t → Runs p (.rest steps way (i + 1)) t r u →
      Runs p (.rest steps way i) s r u
  | lost {steps way i s step target t} : steps[i]? = some step → s.request = none →
      Runs p (.step step (way ++ [i])) s (.ok (some target)) t → position? steps target = none →
      Runs p (.rest steps way i) s (.error (.unknownTarget step.name target)) t
  | stopped {steps way i s step target t j} : steps[i]? = some step → s.request = none →
      Runs p (.step step (way ++ [i])) s (.ok (some target)) t → position? steps target = some j →
      p.config.maxJumps < t.jumps + 1 →
      Runs p (.rest steps way i) s (.error (.jumpLimit step.name p.config.maxJumps))
        (t.aim way i j)
  | jump {steps way i s step target t j r u} : steps[i]? = some step → s.request = none →
      Runs p (.step step (way ++ [i])) s (.ok (some target)) t → position? steps target = some j →
      t.jumps + 1 ≤ p.config.maxJumps →
      Runs p (.rest steps way j) ((t.aim way i j).note (.jumped way i j)) r u →
      Runs p (.rest steps way i) s r u
  | once {step way s r t} : step.iterate = none → Runs p (.body step way) (s.begin way) r t →
      Runs p (.step step way) s r (t.finish way r)
  | each {step way s expression r t} : step.iterate = some expression →
      Runs p (.loop step expression way) (s.begin way) r t →
      Runs p (.step step way) s r (t.finish way r)
  | refused {step way s e t} : p.perform step.name step.action s = (.error e, t) →
      Runs p (.body step way) s (.error e) t
  | alone {step way s o t} : p.perform step.name step.action s = (.ok o, t) →
      (o.descend = false ∨ step.steps = []) → Runs p (.body step way) s (.ok o.jump) t
  | inside {step way s o t v u} : p.perform step.name step.action s = (.ok o, t) →
      o.descend = true → step.steps ≠ [] → Runs p (.block step.steps way) t (.ok v) u →
      Runs p (.body step way) s (.ok o.jump) u
  | broken {step way s o t e u} : p.perform step.name step.action s = (.ok o, t) →
      o.descend = true → step.steps ≠ [] → Runs p (.block step.steps way) t (.error e) u →
      Runs p (.body step way) s (.error e) u
  | unread {step expression way s cause} : Expression.evaluate expression s.context = .error cause →
      Runs p (.loop step expression way) s (.error (.expression step.name cause)) s
  | noList {step expression way s found} : Expression.evaluate expression s.context = .ok found →
      (∀ items, found ≠ .arr items) →
      Runs p (.loop step expression way) s (.error (.notIterable step.name found)) s
  | empty {step expression way s} : Expression.evaluate expression s.context = .ok (.arr []) →
      Runs p (.loop step expression way) s (.ok none) (s.startLoop way [])
  | list {step expression way s items r t} :
      Expression.evaluate expression s.context = .ok (.arr items) → items ≠ [] →
      Runs p (.turns step way) ((s.startLoop way items).push way ⟨step.name, items, 0⟩) r t →
      Runs p (.loop step expression way) s r t.pop
  | ended {step way s} : s.currentItem? = none → Runs p (.turns step way) s (.ok none) s
  | torn {step way s k item e t} : s.currentItem? = some (k, item) →
      Runs p (.body step way) (s.beginTurn way k item) (.error e) t →
      Runs p (.turns step way) s (.error e) (t.endTurn way k .failed s.context)
  | left {step way s k item v t} : s.currentItem? = some (k, item) →
      Runs p (.body step way) (s.beginTurn way k item) (.ok v) t → t.request = some .leaveLoop →
      Runs p (.turns step way) s (.ok none) (t.endTurn way k .completed s.context).settle
  | turn {step way s k item v t r u} : s.currentItem? = some (k, item) →
      Runs p (.body step way) (s.beginTurn way k item) (.ok v) t → t.request ≠ some .leaveLoop →
      Runs p (.turns step way) (t.endTurn way k .completed s.context).settle.advance r u →
      Runs p (.turns step way) s r u

end Workflow
