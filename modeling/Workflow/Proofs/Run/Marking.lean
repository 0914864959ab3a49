import Workflow.Proofs.Run.FinalTree
import Workflow.Proofs.Run.Targets

/-!
# Failing steps

A failure comes up in one call of a run and passes through all the calls around it. Each step on the
way marks its own node, so that in the end the nodes from the root to the place where the failure
has come up have failed with its error, and no other node has changed since. The error names the
step of that place. Only a jump that a block cannot follow is noticed too late for that: the step
that jumps has been completed before its block looks for the target and counts the jump.
-/
namespace Workflow
open Relation
variable {σ π : Type}

def Call.site : Call → List Nat
  | .rest _ way i => way ++ [i]
  | c => c.way

theorem Call.site_rest (steps : List Step) (way : List Nat) (i : Nat) :
    ¬(Call.rest steps way i).site <+: (Call.rest steps way i).way := by
  intro h
  have hlength := h.length_le
  simp only [site, Call.way, List.length_append, List.length_singleton] at hlength
  omega

theorem Call.prefix_way {c : Call} {w : List Nat} (hw : w <+: c.site) (hne : w ≠ c.site) :
    w <+: c.way := by
  cases c with
  | rest => exact (List.prefix_concat_iff.mp hw).resolve_left hne
  | _ => exact hw

/-- How the nodes stand after a call that has failed because of what came up at a place: those in
its hands that lead to the place have failed with the error, and all others stand as they did. -/
structure Call.Marks (c : Call) (cause : RunError) (place : List Nat)
    (before after : RunState σ π) : Prop where
  way : c.way <+: place
  failed : ∀ w, c.Covers w → w <+: place →
    ∀ x, after.standing? w = some x → x = (.failed, some cause.message)
  others : ∀ w, ¬(c.Covers w ∧ w <+: place) → after.standing? w = before.standing? w

namespace Call.Marks
open RunState
variable {c d : Call} {cause : RunError} {place way : List Nat} {s t u : RunState σ π}

/-- A call that has the same nodes in its hands, and changes nothing more. -/
theorem congr (h : d.Marks cause place s t) (hway : c.way = d.way)
    (hcovers : ∀ w, c.Covers w ↔ d.Covers w) (hs : ∀ w, u.standing? w = t.standing? w) :
    c.Marks cause place s u where
  way := hway ▸ h.way
  failed w hc hw x hx := h.failed w ((hcovers w).mp hc) hw x (hs w ▸ hx)
  others w hw := (hs w).trans (h.others w fun hin => hw ⟨(hcovers w).mpr hin.1, hin.2⟩)

theorem rest {steps : List Step} {step : Step} {i : Nat}
    (h : (Call.step step (way ++ [i])).Marks cause place s t) :
    (Call.rest steps way i).Marks cause place s t where
  way := (List.prefix_append way [i]).trans h.way
  failed w hc hw := h.failed w ((Settles.covers_rest h.way hw).mp hc) hw
  others w hw := h.others w fun hin => hw ⟨(Settles.covers_rest h.way hin.2).mpr hin.1, hin.2⟩

/-- The step around a call marks its own node, too. -/
theorem finish {step : Step} (h : d.Marks cause place s t) (hway : d.way = way)
    (hcovers : ∀ w, d.Covers w ↔ way <+: w ∧ w ≠ way) :
    (Call.step step way).Marks cause place s (t.finish way (.error cause)) where
  way := hway ▸ h.way
  failed w hc hw x hx := by
    by_cases hne : w = way
    · rw [standing?_finish, if_pos hne] at hx
      obtain ⟨y, -, rfl⟩ := Option.map_eq_some_iff.mp hx
      rfl
    · rw [standing?_finish_of_ne hne] at hx
      exact h.failed w ((hcovers w).mpr ⟨hc, hne⟩) hw x hx
  others w hw := by
    have hne : w ≠ way := by
      rintro rfl
      exact hw ⟨List.prefix_rfl, hway ▸ h.way⟩
    rw [standing?_finish_of_ne hne]
    exact h.others w fun hin => hw ⟨((hcovers w).mp hin.1).1, hin.2⟩

end Call.Marks

/-- A call that finds a reason to fail has no node in its hands that leads to where it is. -/
theorem Raises.not_covers {p : Program σ π} {c : Call} {s t : RunState σ π} {cause : RunError}
    (h : Raises p c s cause t) {w : List Nat} (hc : c.Covers w) : ¬w <+: c.way := by
  cases h <;> exact Call.Settles.not_prefix hc

/-- If a call fails, the call that makes it marks what has to be marked. -/
theorem Makes.marks {p : Program σ π} {c d : Call} {s t u v : RunState σ π} {cause : RunError}
    {place : List Nat} (h : Makes p (c, s) (d, t)) (hd : Runs p d t (.error cause) v)
    (hm : d.Marks cause place u v) :
    ∃ w, Runs p c s (.error cause) w ∧ c.Marks cause place u w := by
  have same {w : RunState σ π} (hway : c.way = d.way) (hcovers : ∀ w, c.Covers w ↔ d.Covers w)
      (hw : RunState.Still v w) : c.Marks cause place u w := hm.congr hway hcovers hw.standing
  have refl : RunState.Still v v := ⟨fun _ => rfl, fun _ => Iff.rfl⟩
  cases h with
  | block => exact ⟨v, .block hd, same rfl (fun _ => Iff.rfl) refl⟩
  | step hs hq => exact ⟨v, .failed hs hq hd, hm.rest⟩
  | next hs hq h => exact ⟨v, .next hs hq h hd, same rfl (fun _ => Iff.rfl) refl⟩
  | jump hs hq h hj hl => exact ⟨v, .jump hs hq h hj hl hd, same rfl (fun _ => Iff.rfl) refl⟩
  | once hi => exact ⟨_, .once hi hd, hm.finish rfl fun _ => Iff.rfl⟩
  | each hi => exact ⟨_, .each hi hd, hm.finish rfl fun _ => Iff.rfl⟩
  | inside h hdescend hne => exact ⟨v, .broken h hdescend hne hd, same rfl (fun _ => Iff.rfl) refl⟩
  | list he hi => exact ⟨_, .list he hi hd, same rfl (fun _ => Iff.rfl) .pop⟩
  | item hc => exact ⟨_, .torn hc hd, same rfl (fun _ => Iff.rfl) (.endTurn _ _ _ _)⟩
  | turn hc hb hl => exact ⟨v, .turn hc hb hl hd, same rfl (fun _ => Iff.rfl) refl⟩

namespace Raises
open RunState
variable {p : Program σ π} {pipeline : Pipeline} {e : Engine σ π} {c : Call} {s t : RunState σ π}
  {cause : RunError}

/-- A run ends with the failure that one of its calls finds, and marks all that leads there. -/
theorem execution_marks (h : Raises p c s cause t) (hc : Reaches p pipeline e c s) :
    Engine.ending p pipeline e = .error cause ∧
      (Call.block pipeline.steps []).Marks cause c.way t (Engine.execution p pipeline e).2 := by
  suffices hx : ∀ x, ReflTransGen (Makes p) x (c, s) →
      ∃ u, Runs p x.1 x.2 (.error cause) u ∧ x.1.Marks cause c.way t u by
    obtain ⟨u, hu, hmarks⟩ := hx _ hc
    obtain ⟨hr, rfl⟩ := (Engine.execution_runs p pipeline e).unique hu
    exact ⟨hr, hmarks⟩
  intro x hx
  induction hx using ReflTransGen.head_induction_on with
  | refl =>
    exact ⟨t, h.fails, List.prefix_rfl, fun w hw hway => absurd hway (h.not_covers hw),
      fun _ _ => rfl⟩
  | head hm _ ih =>
    obtain ⟨u, hu, hmarks⟩ := ih
    exact hm.marks hu hmarks

/-- What is run by its name fails like its execution, if it is not refused. -/
theorem run_fails (h : Raises p c s cause t) (hc : Reaches p pipeline e c s) {name : String}
    (hp : p.document.pipeline? name = some pipeline) (hr : Engine.refusal p pipeline = none) :
    ∃ after, Engine.run p name e = (.error cause, after) := by
  obtain ⟨hend, -⟩ := h.execution_marks hc
  obtain ⟨r, after, hrun, -, hresult⟩ := Engine.run_eq hp hr e
  rw [Engine.ending, ← hresult] at hend
  cases r with
  | ok v => cases hend
  | error failure =>
    cases hend
    exact ⟨after, hrun⟩

/-- The nodes on the way to the call that finds the failure have failed. -/
theorem failed (h : Raises p c s cause t) (hc : Reaches p pipeline e c s) {w : List Nat}
    (hw : w <+: c.way) {x : Status × Option String}
    (hx : (Engine.finalState p pipeline e).standing? w = some x) :
    x = (.failed, some cause.message) := by
  obtain ⟨hend, hmarks⟩ := h.execution_marks hc
  by_cases hroot : w = []
  · subst hroot
    rw [Engine.finalState_root, hend] at hx
    exact (Option.some.inj hx).symm
  · rw [Engine.finalState, standing?_finish_of_ne hroot] at hx
    exact hmarks.failed w ⟨List.nil_prefix, hroot⟩ hw x hx

/-- All other nodes stand as they do when the failure is found. -/
theorem others (h : Raises p c s cause t) (hc : Reaches p pipeline e c s) {w : List Nat}
    (hw : ¬w <+: c.way) : (Engine.finalState p pipeline e).standing? w = t.standing? w := by
  obtain ⟨-, hmarks⟩ := h.execution_marks hc
  have hroot : w ≠ [] := by
    rintro rfl
    exact hw List.nil_prefix
  rw [Engine.finalState, standing?_finish_of_ne hroot]
  exact hmarks.others w fun hin => hw hin.2

/-- The error names the step of the call, if it names one. -/
theorem site_step (h : Raises p c s cause t) (hc : Reaches p pipeline e c s) {name : String}
    (hn : cause.step? = some name) :
    ∃ step, (e.beginRun pipeline).progress.node? c.site = some (.ofStep step) ∧
      step.name = name := by
  cases h with
  | action ha => exact ⟨_, hc.fits, ((Program.perform_error ha).step?_eq hn).symm⟩
  | unread | noList => exact ⟨_, hc.fits, Option.some.inj hn⟩
  | lost hs hq | stopped hs hq =>
    exact ⟨_, Reaches.fits (hc.tail (.step hs hq)), Option.some.inj hn⟩

end Raises

open Engine Progress in
/-- A run keeps the nodes that it begins with, and their names. -/
theorem Engine.finalState_node? {p : Program σ π} {pipeline : Pipeline} {e : Engine σ π}
    {way : List Nat} {n : Progress} (h : (e.beginRun pipeline).progress.node? way = some n) :
    ∃ m, (finalState p pipeline e).progress.node? way = some m ∧ m.name = n.name := by
  have hbegin : ((ofPipeline pipeline).node? way).map Progress.name = some n.name := by
    cases way <;> exact congrArg (Option.map Progress.name) h
  exact Option.map_eq_some_iff.mp ((finalState_names way).trans hbegin)

/-- A step that has ended has left its node completed or failed. -/
theorem Runs.step_standing {p : Program σ π} {step : Step} {way : List Nat} {s t : RunState σ π}
    {r : Except RunError (Option String)} (h : Runs p (.step step way) s r t) :
    t.standing? way = (s.standing? way).map fun _ => match r with
      | .ok _ => (.completed, none)
      | .error e => (.failed, some e.message) := by
  have marked {u : RunState σ π} (hu : u.standing? way = (s.begin way).standing? way) :
      (u.finish way r).standing? way = (s.standing? way).map fun _ => match r with
        | .ok _ => (.completed, none)
        | .error e => (.failed, some e.message) := by
    rw [RunState.standing?_finish, if_pos rfl, hu, RunState.standing?_begin, if_pos rfl,
      Option.map_map]
    cases r <;> rfl
  cases h with
  | once _ h => exact marked (congrArg (Option.map _) (h.spares fun hw => hw.2 rfl))
  | each _ h => exact marked h.loop_standing

/-- How the node stands that belongs to the place of a failure: only a step whose jump cannot be
followed has been completed before the failure is found. -/
theorem Raises.site_standing {p : Program σ π} {pipeline : Pipeline} {e : Engine σ π} {c : Call}
    {s t : RunState σ π} {cause : RunError} (h : Raises p c s cause t)
    (hc : Reaches p pipeline e c s) {x : Status × Option String}
    (hx : (Engine.finalState p pipeline e).standing? c.site = some x) :
    x = if cause.isJump then (.completed, none) else (.failed, some cause.message) := by
  have completed {step : Step} {way : List Nat} {s u : RunState σ π} {v : Option String}
      (hstep : Runs p (.step step way) s (.ok v) u) (hu : u.standing? way = some x) :
      x = (.completed, none) := by
    rw [hstep.step_standing] at hu
    obtain ⟨y, -, rfl⟩ := Option.map_eq_some_iff.mp hu
    rfl
  cases h with
  | action ha =>
    rw [(Program.perform_error ha).isJump]
    exact (Raises.action ha).failed hc List.prefix_rfl hx
  | unread he => exact (Raises.unread he).failed hc List.prefix_rfl hx
  | noList he hl => exact (Raises.noList he hl).failed hc List.prefix_rfl hx
  | lost hs hq hstep ht =>
    have hothers := (Raises.lost hs hq hstep ht).others hc (Call.site_rest _ _ _)
    exact completed hstep (hothers.symm.trans hx)
  | stopped hs hq hstep ht hl =>
    have hothers := (Raises.stopped hs hq hstep ht hl).others hc (Call.site_rest _ _ _)
    exact completed hstep ((hothers.trans ((RunState.Still.aim _ _ _).standing _)).symm.trans hx)

open Engine Progress RunState in
/-- A run that fails with an error that names a step leaves a tree in which the node of the step
that has raised the error has that name, and all nodes above it have failed with the error. The node
itself has failed with the error, too, but if the error is that a jump cannot be followed: then it
has been completed. -/
theorem failing_step_marked (p : Program σ π) (name : String) (e : Engine σ π) {cause : RunError}
    {after : Engine σ π} (h : run p name e = (.error cause, after)) {step : String}
    (hstep : cause.step? = some step) :
    ∃ pipeline tree, p.document.pipeline? name = some pipeline ∧ after.runs = e.runs ++ [tree] ∧
      (∃ c s t, Reaches p pipeline e c s ∧ Raises p c s cause t) ∧
      ∀ c s t, Reaches p pipeline e c s → Raises p c s cause t →
        (∃ n, tree.node? c.site = some n ∧ n.name = step ∧
          n.standing = if cause.isJump then (.completed, none)
            else (.failed, some cause.message)) ∧
        ∀ w n, w <+: c.site → w ≠ c.site → tree.node? w = some n →
          n.standing = (.failed, some cause.message) := by
  have herror : (run p name e).1 = .error cause := congrArg Prod.fst h
  obtain ⟨pipeline, hp, hx⟩ := run_step_error hstep herror
  have hr : refusal p pipeline = none := by
    refine refusal_of_run (e := e) hp fun q cycle hq => ?_
    cases herror.symm.trans hq
    cases hstep
  obtain ⟨r, after', hrun, hruns, -⟩ := run_eq hp hr e
  cases h.symm.trans hrun
  have stands {w : List Nat} {n : Progress}
      (hn : (finalState p pipeline e).progress.node? w = some n) :
      (finalState p pipeline e).standing? w = some n.standing := by
    rw [standing?_eq_node?, hn, Option.map_some]
  refine ⟨pipeline, _, hp, hruns, execution_raised hx, fun c s t hc hraises => ⟨?_, ?_⟩⟩
  · obtain ⟨st, hst, hname⟩ := hraises.site_step hc hstep
    obtain ⟨n, hn, hn'⟩ := finalState_node? hst
    exact ⟨n, hn, hn'.trans (by cases st; exact hname), hraises.site_standing hc (stands hn)⟩
  · intro w n hw hne hn
    exact hraises.failed hc (Call.prefix_way hw hne) (stands hn)

/-- A jump to itself without any jumps left, inside another step. -/
theorem failing_step_marked_jump :
    let again := Step.bare "again" none (.jump "again" none) []
    let pipeline := Pipeline.bare "main" [.bare "group" none .idle [again]]
    let p := Program.bare ⟨0, "pipeline", false⟩ pipeline
    ∃ after tree, Engine.run p "main" (.bare .empty) = (.error (.jumpLimit "again" 0), after) ∧
      after.runs = [tree] ∧
      (∃ n, tree.node? [0, 0] = some n ∧ n.name = "again" ∧ n.standing = (.completed, none)) ∧
      ∀ n, tree.node? [0] = some n →
        n.standing = (.failed, some "jump limit of 0 exceeded at step 'again'") := by
  intro again pipeline p
  let e := Engine.bare .empty
  obtain ⟨s, t, hreach, hraises⟩ : ∃ s t, Reaches p pipeline e (.rest [again] [0] 0) s ∧
      Raises p (.rest [again] [0] 0) s (.jumpLimit again.name p.config.maxJumps) t := by
    have hbody : Reaches p pipeline e (.body (.bare "group" none .idle [again]) [0]) _ :=
      ((Relation.ReflTransGen.single .block).tail (.step rfl rfl)).tail (.once rfl)
    exact ⟨_, _, (hbody.tail (.inside (o := .proceed) rfl rfl (by decide))).tail .block,
      .stopped rfl rfl (.once rfl (.alone (o := ⟨some "again", true⟩) rfl (.inr rfl))) rfl
        (Nat.succ_pos 0)⟩
  have hp : p.document.pipeline? "main" = some pipeline := rfl
  obtain ⟨after, hrun⟩ := hraises.run_fails hreach hp rfl
  obtain ⟨found, tree, hfound, hruns, -, hmarks⟩ := failing_step_marked p "main" e hrun rfl
  obtain rfl : pipeline = found := Option.some.inj hfound
  obtain ⟨hsite, habove⟩ := hmarks _ _ _ hreach hraises
  have hmessage : (RunError.jumpLimit again.name p.config.maxJumps).message =
      "jump limit of 0 exceeded at step 'again'" := by
    decide
  rw [hmessage] at habove
  exact ⟨_, tree, hrun, hruns, hsite, fun n => habove [0] n (by decide) (by decide)⟩

end Workflow
