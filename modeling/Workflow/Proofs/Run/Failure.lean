import Workflow.Proofs.Run.Jumps

/-!
# Why a run fails

A failure passes up unchanged through all calls, so that a run fails for a reason that one of its
calls finds: an action that fails, an iteration over what is no list, or a jump that its block
cannot follow.
-/
namespace Workflow
open Relation
variable {σ π : Type}

/-- A call finds a reason to fail by itself, and ends in a state with it. -/
inductive Raises (p : Program σ π) : Call → RunState σ π → RunError → RunState σ π → Prop
  | action {step way s e t} : p.perform step.name step.action s = (.error e, t) →
      Raises p (.body step way) s e t
  | unread {step expression way s cause} : Expression.evaluate expression s.context = .error cause →
      Raises p (.loop step expression way) s (.expression step.name cause) s
  | noList {step expression way s found} : Expression.evaluate expression s.context = .ok found →
      (∀ items, found ≠ .arr items) →
      Raises p (.loop step expression way) s (.notIterable step.name found) s
  | lost {steps way i s step target t} : steps[i]? = some step → s.request = none →
      Runs p (.step step (way ++ [i])) s (.ok (some target)) t → position? steps target = none →
      Raises p (.rest steps way i) s (.unknownTarget step.name target) t
  | stopped {steps way i s step target t j} : steps[i]? = some step → s.request = none →
      Runs p (.step step (way ++ [i])) s (.ok (some target)) t → position? steps target = some j →
      p.config.maxJumps < t.jumps + 1 →
      Raises p (.rest steps way i) s (.jumpLimit step.name p.config.maxJumps) (t.aim way i j)

theorem Raises.fails {p : Program σ π} {c : Call} {s t : RunState σ π} {e : RunError}
    (h : Raises p c s e t) : Runs p c s (.error e) t := by
  cases h with
  | action h => exact .refused h
  | unread h => exact .unread h
  | noList h hl => exact .noList h hl
  | lost hs hq h ht => exact .lost hs hq h ht
  | stopped hs hq h ht hl => exact .stopped hs hq h ht hl

/-- A call that fails has made the call that finds the reason, if it has not found it itself. -/
theorem Runs.raised {p : Program σ π} {c : Call} {s t : RunState σ π} {e : RunError}
    (h : Runs p c s (.error e) t) :
    ∃ d u v, ReflTransGen (Makes p) (c, s) (d, u) ∧ Raises p d u e v := by
  have up {x y : Call × RunState σ π} (hm : Makes p x y) :
      (∃ d u v, ReflTransGen (Makes p) y (d, u) ∧ Raises p d u e v) →
        ∃ d u v, ReflTransGen (Makes p) x (d, u) ∧ Raises p d u e v :=
    fun ⟨d, u, v, hd, hu⟩ => ⟨d, u, v, .head hm hd, hu⟩
  generalize hr : Except.error e = r at h
  induction h with
  | block _ ih => exact up .block (ih hr)
  | failed hs hq _ ih => exact up (.step hs hq) (ih hr)
  | next hs hq h _ _ ih => exact up (.next hs hq h) (ih hr)
  | lost hs hq h ht =>
    cases hr
    exact ⟨_, _, _, .refl, .lost hs hq h ht⟩
  | stopped hs hq h ht hl =>
    cases hr
    exact ⟨_, _, _, .refl, .stopped hs hq h ht hl⟩
  | jump hs hq h ht hl _ _ ih => exact up (.jump hs hq h ht hl) (ih hr)
  | once hi _ ih => exact up (.once hi) (ih hr)
  | each hi _ ih => exact up (.each hi) (ih hr)
  | refused h =>
    cases hr
    exact ⟨_, _, _, .refl, .action h⟩
  | broken h hd hne _ ih => exact up (.inside h hd hne) (ih hr)
  | unread h =>
    cases hr
    exact ⟨_, _, _, .refl, .unread h⟩
  | noList h hl =>
    cases hr
    exact ⟨_, _, _, .refl, .noList h hl⟩
  | list he hi _ ih => exact up (.list he hi) (ih hr)
  | torn hi _ ih => exact up (.item hi) (ih hr)
  | turn hi h hl _ _ ih => exact up (.turn hi h hl) (ih hr)
  | finished | skipped | alone | inside | empty | ended | left => cases hr

/-- A run that fails has made a call that finds the reason. -/
theorem Engine.execution_raised {p : Program σ π} {pipeline : Pipeline} {e : Engine σ π}
    {cause : RunError} (h : (execution p pipeline e).1 = .error cause) :
    ∃ c s t, Reaches p pipeline e c s ∧ Raises p c s cause t := by
  have hrun := execution_runs p pipeline e
  rw [h] at hrun
  exact hrun.raised

namespace Engine
open Attempt
variable {p : Program σ π} {e : Engine σ π} {cause : RunError}

/-- What is run by its name fails because there is no pipeline of that name, because the pipeline is
refused, or because its execution fails. -/
theorem run_error {name : String} (h : (run p name e).1 = .error cause) :
    cause = .pipelineNotFound name ∨
      ∃ pipeline, p.document.pipeline? name = some pipeline ∧
        (refusal p pipeline = some cause ∨ (execution p pipeline e).1 = .error cause) := by
  unfold run at h
  cases hp : p.document.pipeline? name with
  | none =>
    rw [hp] at h
    cases h
    exact .inl rfl
  | some pipeline =>
    rw [hp] at h
    refine .inr ⟨pipeline, rfl, ?_⟩
    dsimp only at h
    rw [bind_apply, runPipeline] at h
    cases hr : refusal p pipeline with
    | some refused =>
      rw [hr] at h
      cases h
      exact .inl rfl
    | none =>
      rw [hr] at h
      rcases hx : execution p pipeline e with ⟨failed | _, s⟩ <;> rw [hx] at h <;> cases h
      exact .inr rfl

theorem runNames_error {names : List String} (h : (runNames p names e).1 = .error cause) :
    ∃ name ∈ names, ∃ before, (run p name before).1 = .error cause := by
  induction names generalizing e with
  | nil => cases h
  | cons name names ih =>
    rw [runNames, bind_apply] at h
    rcases hr : run p name e with ⟨failed | _, after⟩ <;> rw [hr] at h
    · exact ⟨name, List.mem_cons_self, e, (congrArg Prod.fst hr).trans h⟩
    · obtain ⟨later, hlater, before, hbefore⟩ := ih h
      exact ⟨later, List.mem_cons_of_mem _ hlater, before, hbefore⟩

/-- An error that names a step is one of an execution. -/
theorem run_step_error {name step : String} (hs : cause.step? = some step)
    (h : (run p name e).1 = .error cause) :
    ∃ pipeline, p.document.pipeline? name = some pipeline ∧
      (execution p pipeline e).1 = .error cause := by
  rcases run_error h with rfl | ⟨pipeline, hp, hr | hx⟩
  · cases hs
  · obtain ⟨cycle, -, rfl⟩ := refusal_eq_some hr
    cases hs
  · exact ⟨pipeline, hp, hx⟩

/-- No run fails with an error of a step that no execution fails with. -/
theorem run_ne_error {step : String} (hs : cause.step? = some step)
    (hx : ∀ pipeline ∈ p.document.pipelines, ∀ e, (execution p pipeline e).1 ≠ .error cause)
    (e : Engine σ π) :
    (∀ name, (run p name e).1 ≠ .error cause) ∧ (runAll p e).1 ≠ .error cause := by
  have hrun (name : String) (e : Engine σ π) : (run p name e).1 ≠ .error cause := by
    intro h
    obtain ⟨pipeline, hp, h⟩ := run_step_error hs h
    exact hx pipeline (List.mem_of_find?_eq_some hp) e h
  refine ⟨fun name => hrun name e, fun h => ?_⟩
  obtain ⟨name, -, before, h⟩ := runNames_error h
  exact hrun name before h

end Engine
end Workflow
