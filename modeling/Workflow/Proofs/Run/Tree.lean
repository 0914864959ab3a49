import Workflow.Proofs.Run.Calls

/-!
# The tree of a run

A change of the node at the end of one way leaves alone what all the other nodes say. So a call
changes nothing but its own part of the tree, and no node ever comes or goes.
-/
namespace Workflow

namespace Progress

/-- What a node says of itself, without the nodes below it. -/
def own (n : Progress) : Progress := { n with children := [] }

theorem node?_append (way rest : List Nat) (n : Progress) :
    node? (way ++ rest) n = (node? way n).bind (node? rest) := by
  induction way generalizing n with
  | nil => rfl
  | cons i way ih =>
    simp only [List.cons_append, node?]
    cases n.children[i]? with
    | none => rfl
    | some child => exact ih child

theorem ofSteps_eq_map (steps : List Step) : ofSteps steps = steps.map ofStep := by
  induction steps with
  | nil => rfl
  | cons step steps ih => rw [ofSteps, ih, List.map_cons]

theorem ofStep_children (step : Step) : (ofStep step).children = ofSteps step.steps := by
  cases step
  rfl

theorem node?_update_self (f : Progress → Progress) (way : List Nat) (n : Progress) :
    (update f way n).node? way = (n.node? way).map f := by
  induction way generalizing n with
  | nil => rfl
  | cons i way ih =>
    simp only [update, node?, List.getElem?_modify_eq]
    cases n.children[i]? with
    | none => rfl
    | some child => exact ih child

/-- A change of what a node says of itself: it has nothing to do with the nodes below. -/
structure Local (f : Progress → Progress) : Prop where
  children : ∀ n, (f n).children = n.children
  own : ∀ n, (f n).own = f n.own

theorem Local.markRunning (now : Instant) : Local (Progress.markRunning now) :=
  ⟨fun _ => rfl, fun _ => rfl⟩

theorem Local.markCompleted (now : Instant) : Local (Progress.markCompleted now) :=
  ⟨fun _ => rfl, fun _ => rfl⟩

theorem Local.markFailed (now : Instant) (error : String) : Local (Progress.markFailed now error) :=
  ⟨fun _ => rfl, fun _ => rfl⟩

theorem Local.startIterations (labels : List String) : Local (Progress.startIterations labels) :=
  ⟨fun _ => rfl, fun _ => rfl⟩

theorem Local.setIteration (k : Nat) (status : Status) : Local (Progress.setIteration k status) :=
  ⟨fun _ => rfl, fun _ => rfl⟩

theorem own_update_of_ne {f : Progress → Progress} (hf : Local f) {way w : List Nat} (h : w ≠ way)
    (n : Progress) : ((update f way n).node? w).map own = (n.node? w).map own := by
  induction way generalizing w n with
  | nil =>
    cases w with
    | nil => exact absurd rfl h
    | cons i w => rw [update, node?, hf.children, node?]
  | cons j way ih =>
    cases w with
    | nil => rfl
    | cons i w =>
      simp only [update, node?, List.getElem?_modify]
      cases n.children[i]? with
      | none => rfl
      | some child =>
        by_cases hij : j = i
        · subst hij
          simpa using ih (fun hw => h (by rw [hw])) child
        · simp [hij]

end Progress

variable {σ π : Type}

namespace RunState
open Progress

def own? (way : List Nat) (s : RunState σ π) : Option Progress := (s.progress.node? way).map own

theorem own?_mapNode {f : Progress → Progress} (hf : Local f) (way w : List Nat)
    (s : RunState σ π) :
    (s.mapNode way f).own? w = if w = way then (s.own? w).map f else s.own? w := by
  split
  · rename_i h
    subst h
    rw [own?, own?, mapNode, node?_update_self, Option.map_map, Option.map_map]
    congr 1
    funext n
    exact hf.own n
  · rename_i h
    exact own_update_of_ne hf h s.progress

theorem own?_begin (way w : List Nat) (s : RunState σ π) :
    (s.begin way).own? w = if w = way then (s.own? w).map (markRunning s.store.now)
      else s.own? w :=
  own?_mapNode (.markRunning _) way w _

theorem own?_finish (way w : List Nat) (r : Except RunError (Option String)) (s : RunState σ π) :
    (s.finish way r).own? w = if w = way then
        (s.own? w).map (match r with
          | .ok _ => markCompleted s.store.now
          | .error e => markFailed s.store.now e.message)
      else s.own? w := by
  cases r with
  | ok v => exact own?_mapNode (.markCompleted _) way w s
  | error e => exact own?_mapNode (.markFailed _ _) way w s

theorem own?_startLoop (way w : List Nat) (items : List Json) (s : RunState σ π) :
    (s.startLoop way items).own? w =
      if w = way then (s.own? w).map (startIterations (items.map Iterations.label))
      else s.own? w :=
  own?_mapNode (.startIterations _) way w s

theorem own?_beginTurn (way w : List Nat) (k : Nat) (item : Json) (s : RunState σ π) :
    (s.beginTurn way k item).own? w =
      if w = way then (s.own? w).map (setIteration k .running) else s.own? w :=
  own?_mapNode (.setIteration _ _) way w (s.note (.turned k))

theorem own?_endTurn (way w : List Nat) (k : Nat) (status : Status) (outer : Table Json)
    (s : RunState σ π) :
    (s.endTurn way k status outer).own? w =
      if w = way then (s.own? w).map (setIteration k status) else s.own? w :=
  own?_mapNode (.setIteration _ _) way w
    { s with context := Program.leaveIteration outer s.context }

@[simp] theorem settle_progress (s : RunState σ π) : s.settle.progress = s.progress := by
  unfold settle
  split <;> rfl

@[simp] theorem own?_settle (w : List Nat) (s : RunState σ π) : s.settle.own? w = s.own? w := by
  rw [own?, own?, settle_progress]

theorem own?_perform {p : Program σ π} {step : String} {action : Action} {s t : RunState σ π}
    {r : Except RunError Program.Outcome} (h : p.perform step action s = (r, t)) (w : List Nat) :
    t.own? w = s.own? w := by
  rw [own?, own?, Program.perform_progress h]

/-- A change keeps all nodes. -/
theorem Alters.nodes {p : Program σ π} {s t : RunState σ π} (h : Alters p s t) (w : List Nat) :
    (t.own? w).isSome = (s.own? w).isSome := by
  cases h with
  | act h => rw [own?_perform h]
  | begin way =>
    rw [own?_begin]
    split <;> simp only [Option.isSome_map]
  | finish way r =>
    rw [own?_finish]
    split <;> simp only [Option.isSome_map]
  | startLoop way items =>
    rw [own?_startLoop]
    split <;> simp only [Option.isSome_map]
  | beginTurn way k item =>
    rw [own?_beginTurn]
    split <;> simp only [Option.isSome_map]
  | endTurn way k status outer =>
    rw [own?_endTurn]
    split <;> simp only [Option.isSome_map]
  | settle => rw [own?_settle]
  | _ => rfl

end RunState

def Call.way : Call → List Nat
  | .block _ way | .rest _ way _ | .step _ way | .body _ way | .loop _ _ way | .turns _ way => way

/-- Whether the node at the end of a way is in the part of the tree of a call. -/
def Call.Touches (w : List Nat) : Call → Prop
  | .block _ way | .rest _ way _ | .body _ way => way <+: w ∧ w ≠ way
  | .step _ way | .loop _ _ way | .turns _ way => way <+: w

namespace Runs
open RunState
variable {p : Program σ π} {c : Call} {s t : RunState σ π}
  {r : Except RunError (Option String)}

/-- A call leaves alone what the nodes outside its part of the tree say. -/
theorem spares (h : Runs p c s r t) {w : List Nat} (hw : ¬c.Touches w) : t.own? w = s.own? w := by
  have inner {way : List Nat} {i : Nat} (h : ¬(way <+: w ∧ w ≠ way)) : ¬(way ++ [i]) <+: w := by
    rintro ⟨rest, rfl⟩
    exact h ⟨⟨[i] ++ rest, by simp⟩, by simp⟩
  have ne {way : List Nat} (h : ¬way <+: w) : w ≠ way := by
    rintro rfl
    exact h List.prefix_rfl
  induction h with
  | block _ ih => exact ih hw
  | finished _ => rfl
  | skipped _ _ => rfl
  | failed _ _ _ ih => exact ih (inner hw)
  | next _ _ _ _ ih ih' => exact (ih' hw).trans (ih (inner hw))
  | lost _ _ _ _ ih => exact ih (inner hw)
  | stopped _ _ _ _ _ ih => exact ih (inner hw)
  | jump _ _ _ _ _ _ ih ih' => exact (ih' hw).trans (ih (inner hw))
  | once _ _ ih =>
    rw [own?_finish, if_neg (ne hw), ih (fun h => hw h.1), own?_begin, if_neg (ne hw)]
  | each _ _ ih => rw [own?_finish, if_neg (ne hw), ih hw, own?_begin, if_neg (ne hw)]
  | refused h => exact own?_perform h w
  | alone h _ => exact own?_perform h w
  | inside h _ _ _ ih => exact (ih hw).trans (own?_perform h w)
  | broken h _ _ _ ih => exact (ih hw).trans (own?_perform h w)
  | unread _ => rfl
  | noList _ _ => rfl
  | empty _ => rw [own?_startLoop, if_neg (ne hw)]
  | list _ _ _ ih =>
    refine (ih hw).trans ?_
    change (startLoop _ _ _).own? w = _
    rw [own?_startLoop, if_neg (ne hw)]
  | ended _ => rfl
  | torn _ _ ih =>
    rw [own?_endTurn, if_neg (ne hw), ih (fun h => hw h.1), own?_beginTurn, if_neg (ne hw)]
  | left _ _ _ ih =>
    rw [own?_settle, own?_endTurn, if_neg (ne hw), ih (fun h => hw h.1), own?_beginTurn,
      if_neg (ne hw)]
  | turn _ _ _ _ ih ih' =>
    rw [ih' hw]
    change (settle _).own? w = _
    rw [own?_settle, own?_endTurn, if_neg (ne hw), ih (fun h => hw h.1), own?_beginTurn,
      if_neg (ne hw)]

end Runs
end Workflow
