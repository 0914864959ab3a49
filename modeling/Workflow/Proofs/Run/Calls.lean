import Workflow.Proofs.Run.Frames
import Workflow.Run.Engine

/-!
# Every call ends as the rules tell

The program carries bounds that make it evidently finite: an allowance of jumps for every block and
a number of turns for every loop. They never decide anything. Each call has a derivation by the
rules, which know of no such bounds, and it has only one.
-/
namespace Workflow
variable {σ π : Type}

namespace Program
open Attempt

theorem runners_eq_map (p : Program σ π) (steps : List Step) :
    p.runners steps = steps.map p.runner := by
  induction steps with
  | nil => rfl
  | cons step steps ih => rw [runners, ih, List.map_cons]

theorem runner_name (p : Program σ π) (step : Step) : (p.runner step).name = step.name := by
  cases step
  rfl

theorem runner_run (p : Program σ π) (step : Step) :
    (p.runner step).run = runStep p step.name step.iterate step.action (p.runners step.steps) := by
  cases step
  rfl

theorem findIdx?_runners (p : Program σ π) (steps : List Step) (target : String) :
    (p.runners steps).findIdx? (fun s => s.name == target) = position? steps target := by
  rw [runners_eq_map, List.findIdx?_map, position?]
  congr 1
  funext step
  exact congrArg (· == target) (p.runner_name step)

theorem runFrom_apply (p : Program σ π) (steps : List Step) (way : List Nat)
    (allowance index : Nat) (s : RunState σ π) :
    runFrom p.config.maxJumps (p.runners steps) way allowance index s =
      match steps[index]? with
      | none => (.ok ⟨⟩, s)
      | some step =>
        if s.request.isSome then (.ok ⟨⟩, s)
        else match (p.runner step).run (way ++ [index]) s with
          | (.error e, t) => (.error e, t)
          | (.ok none, t) => runFrom p.config.maxJumps (p.runners steps) way allowance (index + 1) t
          | (.ok (some target), t) =>
            match position? steps target with
            | none => (.error (.unknownTarget step.name target), t)
            | some next =>
              if allowance = 0 ∨ p.config.maxJumps < t.jumps + 1 then
                (.error (.jumpLimit step.name p.config.maxJumps), t.aim way index next)
              else runFrom p.config.maxJumps (p.runners steps) way (allowance - 1) next
                ((t.aim way index next).note (.jumped way index next)) := by
  rw [runFrom]
  have get {h : index < (p.runners steps).length} {step : Step} (hs : steps[index]? = some step) :
      (p.runners steps)[index] = p.runner step := by
    simp only [runners_eq_map, List.getElem_map]
    exact congrArg _ (List.getElem?_eq_some_iff.mp hs).2
  by_cases h : index < (p.runners steps).length
  · have hi : index < steps.length := by simpa [runners_eq_map] using h
    have hs := List.getElem?_eq_getElem hi
    rw [dif_pos h, get_bind, hs, get hs]
    dsimp only
    split
    · rfl
    · rw [bind_apply]
      rcases (p.runner steps[index]).run (way ++ [index]) s with ⟨e | _ | target, t⟩
      · rfl
      · rfl
      · dsimp only
        rw [findIdx?_runners]
        cases position? steps target with
        | none =>
          dsimp only
          rw [runner_name]
          rfl
        | some next =>
          dsimp only
          rw [modify_bind, get_bind]
          split
          · rename_i h
            rw [runner_name]
            exact (if_pos h).symm
          · rename_i h
            rw [modify_bind]
            exact (if_neg h).symm
  · have hs : steps[index]? = none := by
      simpa [runners_eq_map, List.getElem?_eq_none_iff] using h
    rw [dif_neg h, hs]
    rfl

theorem tracked_apply (way : List Nat) (a : RunAction σ π (Option String)) (s : RunState σ π) :
    tracked way a s =
      ((a (s.begin way)).1, (a (s.begin way)).2.finish way (a (s.begin way)).1) := by
  rw [tracked, modify_bind, mark, modify_bind, bind_apply, tryCatch_apply]
  unfold RunState.begin
  rcases a _ with ⟨e | v, t⟩ <;> rfl

theorem runBody_apply (p : Program σ π) (step : Step) (way : List Nat) (s : RunState σ π) :
    runBody p step.name step.action (p.runners step.steps) way s =
      match p.perform step.name step.action s with
      | (.error e, t) => (.error e, t)
      | (.ok o, t) =>
        if o.descend = true ∧ step.steps ≠ [] then
          match p.runBlock (p.runners step.steps) way t with
          | (.error e, u) => (.error e, u)
          | (.ok _, u) => (.ok o.jump, u)
        else (.ok o.jump, t) := by
  have empty : p.runners step.steps = [] ↔ step.steps = [] := by
    rw [runners_eq_map, List.map_eq_nil_iff]
  rw [runBody, bind_apply]
  rcases p.perform step.name step.action s with ⟨e | o, t⟩
  · rfl
  · by_cases h : o.descend = true ∧ step.steps ≠ []
    · have hd : (o.descend && !(p.runners step.steps).isEmpty) = true := by
        simpa [empty] using h
      dsimp only
      rw [if_pos h, if_pos hd, bind_apply]
      rcases p.runBlock (p.runners step.steps) way t with ⟨e | v, u⟩ <;> rfl
    · have hd : ¬(o.descend && !(p.runners step.steps).isEmpty) = true := by
        simpa [empty] using h
      dsimp only
      rw [if_neg h, if_neg hd]
      rfl

theorem evaluate_apply (step expression : String) (s : RunState σ π) :
    evaluate step expression s =
      ((Expression.evaluate expression s.context).mapError (.expression step), s) := rfl

theorem runLoop_apply (step expression : String) (body : RunAction σ π (Option String))
    (way : List Nat) (s : RunState σ π) :
    runLoop step expression body way s =
      match Expression.evaluate expression s.context with
      | .error cause => (.error (.expression step cause), s)
      | .ok (.arr items) =>
        if items = [] then (.ok ⟨⟩, s.startLoop way items)
        else
          let (r, t) := runTurns body way items.length
            ((s.startLoop way items).push way ⟨step, items, 0⟩)
          (r, t.pop)
      | .ok found => (.error (.notIterable step found), s) := by
  rw [runLoop, bind_apply, evaluate_apply]
  cases Expression.evaluate expression s.context with
  | error cause => rfl
  | ok found =>
    cases found with
    | arr items => cases items <;> rfl
    | _ => rfl

theorem runTurns_succ (body : RunAction σ π (Option String)) (way : List Nat) (n : Nat)
    (s : RunState σ π) :
    runTurns body way (n + 1) s =
      match s.currentItem? with
      | none => (.ok ⟨⟩, s)
      | some (k, item) =>
        match body (s.beginTurn way k item) with
        | (.error e, t) => (.error e, t.endTurn way k .failed s.context)
        | (.ok _, t) =>
          if t.request = some .leaveLoop then
            (.ok ⟨⟩, (t.endTurn way k .completed s.context).settle)
          else runTurns body way n (t.endTurn way k .completed s.context).settle.advance := by
  rw [runTurns, get_bind]
  cases s.currentItem? with
  | none => rfl
  | some current =>
    obtain ⟨k, item⟩ := current
    dsimp only
    rw [modify_bind, markIteration, modify_bind, bind_apply, tryCatch_apply, runIteration]
    unfold RunState.beginTurn
    rcases body _ with ⟨e | v, t⟩
    · rfl
    · change (takeRequest >>= fun q => if q = some LoopControl.leaveLoop then pure ⟨⟩
        else modify .advance >>= fun _ => runTurns body way n)
          (t.endTurn way k .completed s.context) = _
      rw [bind_apply]
      change (if t.request = some LoopControl.leaveLoop then pure ⟨⟩
        else modify .advance >>= fun _ => runTurns body way n :
          RunAction σ π Unit) (t.endTurn way k .completed s.context).settle = _
      dsimp only
      by_cases hl : t.request = some LoopControl.leaveLoop
      · rw [if_pos hl, if_pos hl]
        rfl
      · rw [if_neg hl, if_neg hl]
        rfl

/-- A call as the program makes it, at first with all jumps allowed. -/
def call (p : Program σ π) : Call → RunAction σ π (Option String)
  | .block steps way => do
    p.runBlock (p.runners steps) way
    return none
  | .rest steps way index => do
    runFrom p.config.maxJumps (p.runners steps) way p.config.maxJumps index
    return none
  | .step step way => (p.runner step).run way
  | .body step way => runBody p step.name step.action (p.runners step.steps) way
  | .loop step expression way => do
    runLoop step.name expression (runBody p step.name step.action (p.runners step.steps) way) way
    return none
  | .turns step way => fun s => (do
    runTurns (runBody p step.name step.action (p.runners step.steps) way) way s.remaining
    return none : RunAction σ π (Option String)) s

end Program

namespace Runs
open Program Attempt
variable {p : Program σ π}

/-- What the program does ends a call by the rules. -/
abbrev Does (p : Program σ π) (c : Call) (a : RunAction σ π (Option String)) : Prop :=
  ∀ s r t, a s = (r, t) → Runs p c s r t

/-- A block is run by the rules if its steps are. As long as the allowance covers what is left of
the limit, it never decides. -/
theorem of_runFrom {steps : List Step} {way : List Nat}
    (hsteps : ∀ step ∈ steps, ∀ way, Does p (.step step way) ((p.runner step).run way))
    {allowance index : Nat} {s t : RunState σ π} {r : Except RunError PUnit}
    (ha : p.config.maxJumps ≤ allowance + s.jumps)
    (h : runFrom p.config.maxJumps (p.runners steps) way allowance index s = (r, t)) :
    Runs p (.rest steps way index) s (r.map fun _ => none) t := by
  -- A jump takes from the allowance; any other step leaves less of the block.
  induction allowance using Nat.strongRecOn generalizing index s with
  | _ allowance iha =>
  induction hn : steps.length - index using Nat.strongRecOn generalizing index s with
  | _ n ihn =>
  rw [runFrom_apply] at h
  cases hs : steps[index]? with
  | none =>
    rw [hs] at h
    cases h
    exact .finished hs
  | some step =>
    rw [hs] at h
    dsimp only at h
    have hi : index < steps.length := (List.getElem?_eq_some_iff.mp hs).1
    cases hq : s.request with
    | some control =>
      rw [hq] at h
      cases h
      exact .skipped hs (by simp [hq])
    | none =>
      rw [hq, if_neg (by simp)] at h
      rcases hr : (p.runner step).run (way ++ [index]) s with ⟨e | _ | target, u⟩ <;>
        rw [hr] at h <;> have hstep := hsteps step (List.mem_of_getElem? hs) _ _ _ _ hr <;>
        have hj := hstep.jumps_le
      · cases h
        exact .failed hs hq hstep
      · exact .next hs hq hstep (ihn (steps.length - (index + 1)) (by omega) (by omega) h rfl)
      · cases ht : position? steps target with
        | none =>
          simp only [ht] at h
          cases h
          exact .lost hs hq hstep ht
        | some next =>
          simp only [ht] at h
          by_cases hl : p.config.maxJumps < u.jumps + 1
          · rw [if_pos (.inr hl)] at h
            cases h
            exact .stopped hs hq hstep ht hl
          · rw [if_neg (by omega)] at h
            refine .jump hs hq hstep ht (by omega) (iha (allowance - 1) (by omega) ?_ h)
            change _ ≤ allowance - 1 + (u.jumps + 1)
            omega

/-- The turns of a loop are run by the rules if its body is. As long as there are as many turns as
items, their number never decides. -/
theorem of_runTurns {step : Step} {way : List Nat} {body : RunAction σ π (Option String)}
    (hbody : Does p (.body step way) body) {n : Nat} {s t : RunState σ π}
    {r : Except RunError PUnit} (hn : s.remaining ≤ n) (h : runTurns body way n s = (r, t)) :
    Runs p (.turns step way) s (r.map fun _ => none) t := by
  induction n generalizing s with
  | zero =>
    cases h
    exact .ended (RunState.currentItem?_eq_none (Nat.le_zero.mp hn))
  | succ n ih =>
    rw [runTurns_succ] at h
    cases hc : s.currentItem? with
    | none =>
      rw [hc] at h
      cases h
      exact .ended hc
    | some current =>
      obtain ⟨k, item⟩ := current
      simp only [hc] at h
      rcases hb : body (s.beginTurn way k item) with ⟨e | v, u⟩ <;> rw [hb] at h <;>
        have hbody := hbody _ _ _ hb
      · cases h
        exact .torn hc hbody
      · by_cases hl : u.request = some .leaveLoop
        · simp only [hl, if_true] at h
          cases h
          exact .left hc hbody hl
        · simp only [hl, if_false] at h
          have hleft := RunState.remaining_advance hc
            (t := (u.endTurn way k .completed s.context).settle)
            ((RunState.settle_frames _).trans hbody.keeps)
          exact .turn hc hbody hl (ih (by omega) h)

theorem of_body {step : Step} {way : List Nat}
    (hinside : ∀ inner ∈ step.steps, ∀ way, Does p (.step inner way) ((p.runner inner).run way)) :
    Does p (.body step way) (p.call (.body step way)) := by
  intro s r t h
  change runBody p step.name step.action (p.runners step.steps) way s = (r, t) at h
  rw [runBody_apply] at h
  rcases ha : p.perform step.name step.action s with ⟨e | o, u⟩ <;> rw [ha] at h
  · cases h
    exact .refused ha
  · by_cases hd : o.descend = true ∧ step.steps ≠ []
    · simp only [hd, ne_eq, not_false_eq_true, and_self, if_true] at h
      rcases hb : p.runBlock (p.runners step.steps) way u with ⟨e | v, w⟩ <;> rw [hb] at h <;>
        cases h <;> have hblock := Runs.block (of_runFrom hinside (Nat.le_add_right _ _) hb)
      · exact .broken ha hd.1 hd.2 hblock
      · exact .inside ha hd.1 hd.2 hblock
    · simp only [hd, if_false] at h
      cases h
      refine .alone ha ?_
      cases hb : o.descend with
      | false => exact .inl rfl
      | true => exact .inr (by simpa [hb] using hd)

theorem of_runLoop {step : Step} {expression : String} {way : List Nat}
    (hbody : Does p (.body step way) (p.call (.body step way))) {s t : RunState σ π}
    {r : Except RunError PUnit}
    (h : runLoop step.name expression (p.call (.body step way)) way s = (r, t)) :
    Runs p (.loop step expression way) s (r.map fun _ => none) t := by
  rw [runLoop_apply] at h
  cases he : Expression.evaluate expression s.context with
  | error cause =>
    rw [he] at h
    cases h
    exact .unread he
  | ok found =>
    rw [he] at h
    cases found with
    | arr items =>
      by_cases hi : items = []
      · subst hi
        cases h
        exact .empty he
      · simp only [hi, if_false] at h
        cases h
        exact .list he hi (of_runTurns hbody (Nat.le_of_eq (Nat.sub_zero _)) rfl)
    | _ =>
      cases h
      exact .noList he (by simp)

theorem of_step {step : Step}
    (hinside : ∀ inner ∈ step.steps, ∀ way, Does p (.step inner way) ((p.runner inner).run way))
    (way : List Nat) : Does p (.step step way) ((p.runner step).run way) := by
  intro s r t h
  have hbody : Does p (.body step way) (p.call (.body step way)) := of_body hinside
  rw [runner_run, runStep] at h
  cases hi : step.iterate with
  | none =>
    rw [hi, tracked_apply] at h
    cases h
    exact .once hi (hbody _ _ _ rfl)
  | some expression =>
    rw [hi, tracked_apply] at h
    cases h
    refine .each hi ?_
    dsimp only
    rw [bind_apply]
    rcases hl : runLoop step.name expression _ way _ with ⟨e | v, u⟩ <;>
      exact of_runLoop hbody hl

/-- Every step runs by the rules, since the steps inside it do. -/
theorem of_runner : ∀ (step : Step) (way : List Nat),
    Does p (.step step way) ((p.runner step).run way)
  | ⟨name, description, iterate, action, steps⟩, way =>
    of_step (fun inner _ way => of_runner inner way) way

/-- Every call ends by the rules as the program ends it. -/
theorem of_call (c : Call) : Does p c (p.call c) := by
  have result {α : Type} {a : RunAction σ π α} {s t : RunState σ π}
      {r : Except RunError (Option String)} (h : (a >>= fun _ => pure none) s = (r, t)) :
      ∃ v, a s = (v, t) ∧ v.map (fun _ => none) = r := by
    rw [bind_apply] at h
    rcases ha : a s with ⟨e | v, u⟩ <;> rw [ha] at h <;> cases h <;> exact ⟨_, rfl, rfl⟩
  intro s r t h
  cases c with
  | block steps way =>
    obtain ⟨v, hv, rfl⟩ := result h
    exact .block (of_runFrom (fun step _ => of_runner step) (Nat.le_add_right _ _) hv)
  | rest steps way index =>
    obtain ⟨v, hv, rfl⟩ := result h
    exact of_runFrom (fun step _ => of_runner step) (Nat.le_add_right _ _) hv
  | step step way => exact of_runner step way s r t h
  | body step way => exact of_body (fun inner _ => of_runner inner) s r t h
  | loop step expression way =>
    obtain ⟨v, hv, rfl⟩ := result h
    exact of_runLoop (of_body fun inner _ => of_runner inner) hv
  | turns step way =>
    obtain ⟨v, hv, rfl⟩ := result h
    exact of_runTurns (of_body fun inner _ => of_runner inner) le_rfl hv

/-- A call ends in one way only. -/
theorem unique {c : Call} {s t u : RunState σ π} {r q : Except RunError (Option String)}
    (h : Runs p c s r t) (k : Runs p c s q u) : r = q ∧ t = u := by
  induction h generalizing q u with
  | block _ ih =>
    cases k with
    | block k => exact ih k
  | finished | skipped | failed | next | lost | stopped | jump => cases k <;> grind
  | once | each => cases k <;> grind
  | refused | alone | inside | broken => cases k <;> grind
  | unread | noList | empty | list => cases k <;> grind
  | ended | torn | left | turn => cases k <;> grind

end Runs

/-- The run of a pipeline is a call for the block of its steps. -/
theorem Engine.execution_runs (p : Program σ π) (pipeline : Pipeline) (e : Engine σ π) :
    Runs p (.block pipeline.steps []) (e.beginRun pipeline)
      ((execution p pipeline e).1.map fun _ => none) (execution p pipeline e).2 := by
  refine Runs.of_call _ _ _ _ ?_
  change (p.runBlock (p.runners pipeline.steps) [] >>= fun _ => pure none) (e.beginRun pipeline) = _
  rw [Attempt.bind_apply, execution]
  rcases p.runBlock (p.runners pipeline.steps) [] (e.beginRun pipeline) with ⟨_ | _, _⟩ <;> rfl

end Workflow
