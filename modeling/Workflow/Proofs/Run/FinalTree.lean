import Workflow.Proofs.Run.Standing

/-!
# The tree that a run leaves

At the end of a run nothing in its tree is running any more. The tree has the nodes that it has
begun with, under the same names. If the run has succeeded, the nodes of the steps that it has
started are completed and those of the others pending. If it has failed, the nodes on the way to
one place have failed with the error of the run, and all others are as after a success.
-/
namespace Workflow
open Relation
variable {σ π : Type}

namespace Progress

def Calm (n : Progress) : Prop := ∀ it, n.iterations = some it → .running ∉ it.statuses

theorem calm_ofStep (step : Step) : (ofStep step).Calm := by
  obtain ⟨name, _, iterate, _, steps⟩ := step
  intro it hit
  cases iterate with
  | none => cases hit
  | some expression =>
    cases hit
    exact List.not_mem_nil

theorem calm_startIterations (labels : List String) (n : Progress) :
    (n.startIterations labels).Calm := by
  intro it hit hrunning
  cases hit
  cases (List.mem_replicate.mp hrunning).2

theorem Calm.setIteration {n : Progress} (h : n.Calm) (k : Nat) {status : Status}
    (hs : status ≠ .running) : (n.setIteration k status).Calm := by
  intro it hit hrunning
  obtain ⟨before, hb, rfl⟩ := Option.map_eq_some_iff.mp hit
  rcases List.mem_or_eq_of_mem_set hrunning with hold | hnew
  · exact h before hb hold
  · exact hs hnew.symm

theorem setIteration_setIteration (n : Progress) (k : Nat) (first second : Status) :
    (n.setIteration k first).setIteration k second = n.setIteration k second := by
  obtain ⟨name, status, startTime, endTime, error, children, iterations⟩ := n
  cases iterations with
  | none => rfl
  | some it => simp [setIteration, Iterations.set]

end Progress

namespace RunState
open Progress
variable {s t : RunState σ π} {w : List Nat}

/-- No iteration in the node at the end of a way is running. -/
def Calm (w : List Nat) (s : RunState σ π) : Prop := ∀ n, s.own? w = some n → n.Calm

theorem Calm.of_own (h : s.Calm w) (ht : t.own? w = s.own? w) : t.Calm w :=
  fun n hn => h n (ht ▸ hn)

theorem Calm.mapNode (h : s.Calm w) {f : Progress → Progress} (hf : Local f)
    (hc : ∀ n, n.Calm → (f n).Calm) (way : List Nat) : (s.mapNode way f).Calm w := by
  intro n hn
  rw [own?_mapNode hf] at hn
  split at hn
  · obtain ⟨m, hm, rfl⟩ := Option.map_eq_some_iff.mp hn
    exact hc m (h m hm)
  · exact h n hn

theorem Calm.begin (h : s.Calm w) (way : List Nat) : (s.begin way).Calm w :=
  Calm.mapNode (s := s.note (.started way)) h (.markRunning _) (fun _ hn => hn) way

theorem Calm.finish (h : s.Calm w) (way : List Nat) (r : Except RunError (Option String)) :
    (s.finish way r).Calm w := by
  cases r with
  | ok v => exact h.mapNode (.markCompleted _) (fun _ hn => hn) way
  | error cause => exact h.mapNode (.markFailed _ _) (fun _ hn => hn) way

theorem Calm.startLoop (h : s.Calm w) (way : List Nat) (items : List Json) :
    (s.startLoop way items).Calm w :=
  h.mapNode (.startIterations _) (fun n _ => calm_startIterations _ n) way

/-- An iteration that has come to its end is not running, whatever else has happened meanwhile: the
body of a loop leaves the node of the loop alone. -/
theorem Calm.turn {p : Program σ π} {step : Step} {way : List Nat} {k : Nat} {item : Json}
    {r : Except RunError (Option String)} (h : s.Calm w)
    (hb : Runs p (.body step way) (s.beginTurn way k item) r t)
    (ih : (s.beginTurn way k item).Calm w → t.Calm w) {status : Status} (hs : status ≠ .running)
    (outer : Table Json) : (t.endTurn way k status outer).Calm w := by
  by_cases hw : w = way
  · subst hw
    intro n hn
    rw [own?_endTurn, if_pos rfl, hb.spares (fun hin => hin.2 rfl), own?_beginTurn, if_pos rfl,
      Option.map_map] at hn
    obtain ⟨m, hm, rfl⟩ := Option.map_eq_some_iff.mp hn
    rw [Function.comp_apply, setIteration_setIteration]
    exact (h m hm).setIteration k hs
  · have hbegin : (s.beginTurn way k item).Calm w :=
      h.of_own (by rw [own?_beginTurn, if_neg hw])
    exact (ih hbegin).of_own (by rw [own?_endTurn, if_neg hw])

theorem name_mapNode {f : Progress → Progress} (hf : Local f) (h : ∀ n, (f n).name = n.name)
    (way w : List Nat) (s : RunState σ π) :
    ((s.mapNode way f).own? w).map Progress.name = (s.own? w).map Progress.name := by
  rw [own?_mapNode hf]
  split
  · rw [Option.map_map]
    exact congrArg (Option.map · _) (funext h)
  · rfl

/-- No change gives a node another name. -/
theorem Alters.names {p : Program σ π} (h : Alters p s t) (w : List Nat) :
    (t.own? w).map Progress.name = (s.own? w).map Progress.name := by
  cases h with
  | act h => rw [own?_perform h]
  | begin way => exact name_mapNode (.markRunning _) (fun _ => rfl) way w (s.note (.started way))
  | finish way r =>
    cases r with
    | ok v => exact name_mapNode (.markCompleted _) (fun _ => rfl) way w s
    | error cause => exact name_mapNode (.markFailed _ _) (fun _ => rfl) way w s
  | startLoop way items => exact name_mapNode (.startIterations _) (fun _ => rfl) way w s
  | beginTurn way k item =>
    exact name_mapNode (.setIteration _ _) (fun _ => rfl) way w (s.note (.turned k))
  | endTurn way k status outer =>
    exact name_mapNode (.setIteration _ _) (fun _ => rfl) way w
      { s with context := Program.leaveIteration outer s.context }
  | settle => rw [own?_settle]
  | _ => rfl

end RunState

namespace Runs
open RunState
variable {p : Program σ π} {c : Call} {s t : RunState σ π}
  {r : Except RunError (Option String)}

theorem calm (h : Runs p c s r t) {w : List Nat} (hs : s.Calm w) : t.Calm w := by
  induction h with
  | block _ ih => exact ih hs
  | finished _ => exact hs
  | skipped _ _ => exact hs
  | failed _ _ _ ih => exact ih hs
  | next _ _ _ _ ih ih' => exact ih' (ih hs)
  | lost _ _ _ _ ih => exact ih hs
  | stopped _ _ _ _ _ ih => exact ih hs
  | jump _ _ _ _ _ _ ih ih' => exact ih' (ih hs)
  | once _ _ ih => exact (ih (hs.begin _)).finish _ _
  | each _ _ ih => exact (ih (hs.begin _)).finish _ _
  | refused h => exact hs.of_own (own?_perform h w)
  | alone h _ => exact hs.of_own (own?_perform h w)
  | inside h _ _ _ ih => exact ih (hs.of_own (own?_perform h w))
  | broken h _ _ _ ih => exact ih (hs.of_own (own?_perform h w))
  | unread _ => exact hs
  | noList _ _ => exact hs
  | empty _ => exact hs.startLoop _ _
  | list _ _ _ ih => exact ih (hs.startLoop _ _)
  | ended _ => exact hs
  | torn _ h ih => exact hs.turn h ih (by simp) _
  | left _ h _ ih => exact (hs.turn h ih (by simp) _).of_own (own?_settle w _)
  | turn _ h _ _ ih ih' =>
    exact ih' ((hs.turn h ih (by simp) _).of_own (own?_settle w _))

theorem names (h : Runs p c s r t) (w : List Nat) :
    (t.own? w).map Progress.name = (s.own? w).map Progress.name := by
  have hs := h.changes
  clear h
  induction hs with
  | refl => rfl
  | tail _ hs ih => rw [hs.names, ih]

end Runs

namespace Engine
open Progress RunState
variable {p : Program σ π} {pipeline : Pipeline} {e : Engine σ π} {w : List Nat} {n : Progress}

/-- Below its root the tree that a run begins with is one of steps that have not started. -/
theorem node?_beginRun (hw : w ≠ []) (h : (e.beginRun pipeline).progress.node? w = some n) :
    ∃ step, n = ofStep step := by
  cases w with
  | nil => exact absurd rfl hw
  | cons i w =>
    change ((ofSteps pipeline.steps)[i]?).bind (node? w) = some n at h
    rw [ofSteps_eq_map, List.getElem?_map] at h
    obtain ⟨child, hc, hn⟩ := Option.bind_eq_some_iff.mp h
    obtain ⟨step, -, rfl⟩ := Option.map_eq_some_iff.mp hc
    exact node?_ofStep hn

theorem beginRun_rests (hw : w ≠ []) : (e.beginRun pipeline).Rests w := by
  intro x hx
  rw [standing?_eq_node?] at hx
  obtain ⟨n, hn, rfl⟩ := Option.map_eq_some_iff.mp hx
  obtain ⟨step, rfl⟩ := node?_beginRun hw hn
  rw [standing_ofStep]
  rfl

theorem beginRun_calm : (e.beginRun pipeline).Calm w := by
  intro m hm
  obtain ⟨n, hn, rfl⟩ := Option.map_eq_some_iff.mp hm
  by_cases hw : w = []
  · subst hw
    cases hn
    intro it hit
    cases hit
  · obtain ⟨step, rfl⟩ := node?_beginRun hw hn
    exact calm_ofStep step

def ending (p : Program σ π) (pipeline : Pipeline) (e : Engine σ π) :
    Except RunError (Option String) :=
  (execution p pipeline e).1.map fun _ => none

/-- The state of a run when its root has been marked, too. -/
def finalState (p : Program σ π) (pipeline : Pipeline) (e : Engine σ π) : RunState σ π :=
  (execution p pipeline e).2.finish [] (ending p pipeline e)

theorem ending_eq_error {cause : RunError} (h : (execution p pipeline e).1 = .error cause) :
    ending p pipeline e = .error cause := by
  rw [ending, h]
  rfl

theorem ending_eq_ok {v : Unit} (h : (execution p pipeline e).1 = .ok v) :
    ending p pipeline e = .ok none := by
  rw [ending, h]
  rfl

/-- The root has been running all the time. -/
theorem finalState_root :
    (finalState p pipeline e).standing? [] = some (match ending p pipeline e with
      | .ok _ => (.completed, none)
      | .error cause => (.failed, some cause.message)) := by
  have hs : (execution p pipeline e).2.standing? [] = some (.running, none) :=
    congrArg (Option.map _) ((execution_runs p pipeline e).spares fun hw => hw.2 rfl)
  rw [finalState, standing?_finish, if_pos rfl, hs]
  rfl

theorem finalState_rests {v : Option String} (h : ending p pipeline e = .ok v) (hw : w ≠ []) :
    (finalState p pipeline e).Rests w := by
  have hs := (execution_runs p pipeline e).settles
  change Call.Settles _ _ (ending p pipeline e) _ at hs
  rw [h] at hs
  exact (hs w (beginRun_rests hw)).finish hw _

/-- The nodes that have failed with a run are those on the way to one place. -/
theorem finalState_place {cause : RunError} (h : ending p pipeline e = .error cause) :
    ∃ place, ((finalState p pipeline e).own? place).isSome ∧ ∀ w, w ≠ [] →
      (w <+: place → (finalState p pipeline e).Broken cause w) ∧
        (¬w <+: place → (finalState p pipeline e).Rests w) := by
  have hs := (execution_runs p pipeline e).settles
  change Call.Settles _ _ (ending p pipeline e) _ at hs
  rw [h] at hs
  obtain ⟨place, -, hplace⟩ := hs
  have nodes (w : List Nat) : ((finalState p pipeline e).own? w).isSome =
      ((e.beginRun pipeline).own? w).isSome := by
    rw [finalState, (Alters.finish (p := p) _ _ _).nodes]
    have hnames := congrArg Option.isSome ((execution_runs p pipeline e).names w)
    simpa only [Option.isSome_map] using hnames
  refine ⟨place, ?_, fun w hw => ⟨fun hin => ?_, fun hout => ?_⟩⟩
  · rw [nodes]
    by_cases hroot : place = []
    · rw [hroot]
      rfl
    · have hbroken := (hplace place (beginRun_rests hroot)).1
        ⟨⟨List.nil_prefix, hroot⟩, List.prefix_rfl⟩
      obtain ⟨step, s, hs⟩ := Reaches.of_started hbroken.started
      obtain ⟨-, n, hn⟩ := hs.step
      rw [← hs.nodes, hn]
      rfl
  · exact ((hplace w (beginRun_rests hw)).1 ⟨⟨List.nil_prefix, hw⟩, hin⟩).finish hw _
  · exact ((hplace w (beginRun_rests hw)).2 fun hin => hout hin.2).finish hw _

theorem finalState_names (w : List Nat) :
    ((finalState p pipeline e).progress.node? w).map Progress.name =
      ((ofPipeline pipeline).node? w).map Progress.name := by
  have hend := (Alters.finish (p := p) (execution p pipeline e).2 [] (ending p pipeline e)).names w
  rw [(execution_runs p pipeline e).names w] at hend
  have hnames {n : Progress} : (n.node? w).map Progress.name =
      ((n.node? w).map own).map Progress.name := by
    rw [Option.map_map]
    rfl
  rw [hnames]
  refine hend.trans ?_
  have hbegin : (e.beginRun pipeline).progress =
      (ofPipeline pipeline).update (markRunning e.store.now) [] := rfl
  rw [own?, hbegin, ← hnames]
  cases w <;> rfl

theorem finalState_calm (hn : (finalState p pipeline e).progress.node? w = some n) : n.Calm := by
  have hcalm : (finalState p pipeline e).Calm w :=
    ((execution_runs p pipeline e).calm beginRun_calm).finish _ _
  exact hcalm n.own (by rw [own?, hn]; rfl)

theorem finalState_status {x : Status × Option String}
    (hx : (finalState p pipeline e).standing? w = some x) : x.1 ≠ .running := by
  have rests (h : (finalState p pipeline e).Rests w) : x.1 ≠ .running := by
    rw [h x hx]
    dsimp only
    split <;> simp
  by_cases hw : w = []
  · subst hw
    cases finalState_root.symm.trans hx
    cases ending p pipeline e <;> simp
  · cases h : ending p pipeline e with
    | ok v => exact rests (finalState_rests h hw)
    | error cause =>
      obtain ⟨place, -, hplace⟩ := finalState_place h
      obtain ⟨hin, hout⟩ := hplace w hw
      by_cases hp : w <+: place
      · rw [(hin hp).standing x hx]
        simp
      · exact rests (hout hp)

/-- A run that is not refused leaves the tree of its last state. -/
theorem run_eq {name : String} (hp : p.document.pipeline? name = some pipeline)
    (hr : refusal p pipeline = none) (e : Engine σ π) :
    ∃ r after, run p name e = (r, after) ∧
      after.runs = e.runs ++ [(finalState p pipeline e).progress] ∧
      r.map (fun _ => ⟨⟩) = (execution p pipeline e).1 := by
  have htree : finish (execution p pipeline e).2.store.now (execution p pipeline e).1
      (execution p pipeline e).2.progress = (finalState p pipeline e).progress := by
    rw [finalState, ending]
    cases (execution p pipeline e).1 <;> rfl
  refine ⟨(run p name e).1, (run p name e).2, rfl, ?_⟩
  rw [run, hp]
  dsimp only
  rw [Attempt.bind_apply, runPipeline, hr]
  dsimp only
  rw [htree]
  rcases (execution p pipeline e).1 with cause | v <;> exact ⟨rfl, rfl⟩

end Engine

open Engine Progress RunState in
/-- A run that is not refused leaves a tree with the nodes and the names that the pipeline gives it,
in which nothing is running. After a success the root is completed, the steps that have been started
are completed and the others pending. After a failure the nodes on the way to one place have failed,
each with the error of the run, and the others are pending or completed without one. -/
theorem run_tree {p : Program σ π} {name : String} {pipeline : Pipeline}
    (hp : p.document.pipeline? name = some pipeline) (hr : refusal p pipeline = none)
    (e : Engine σ π) :
    ∃ r after tree, Engine.run p name e = (r, after) ∧ after.runs = e.runs ++ [tree] ∧
      (∀ w, (tree.node? w).map Progress.name =
        ((ofPipeline pipeline).node? w).map Progress.name) ∧
      (∀ w n, tree.node? w = some n → n.status ≠ .running ∧ n.Calm) ∧
      (∀ context, r = .ok context → tree.status = .completed ∧
        ∀ w n, tree.node? w = some n → n.error = none ∧
          (w ≠ [] → n.status =
            if .started w ∈ (execution p pipeline e).2.log then .completed else .pending)) ∧
      ∀ cause, r = .error cause → ∃ place, (tree.node? place).isSome ∧
        ∀ w n, tree.node? w = some n →
          if w <+: place then n.status = .failed ∧ n.error = some cause.message
          else (n.status = .pending ∨ n.status = .completed) ∧ n.error = none := by
  obtain ⟨r, after, hrun, hruns, hresult⟩ := run_eq hp hr e
  have stands {w : List Nat} {n : Progress}
      (hn : (finalState p pipeline e).progress.node? w = some n) :
      (finalState p pipeline e).standing? w = some (n.status, n.error) := by
    rw [standing?_eq_node?, hn]
    rfl
  have success {context : Table Json} (hr : r = .ok context) :
      ending p pipeline e = .ok none := ending_eq_ok (by rw [← hresult, hr]; rfl)
  have failure {cause : RunError} (hr : r = .error cause) :
      ending p pipeline e = .error cause := ending_eq_error (by rw [← hresult, hr]; rfl)
  refine ⟨r, after, _, hrun, hruns, finalState_names, fun w n hn => ⟨?_, finalState_calm hn⟩,
    fun context hok => ⟨?_, fun w n hn => ?_⟩, fun cause herror => ?_⟩
  · exact finalState_status (stands hn)
  · have hroot := (stands (w := []) rfl).symm.trans finalState_root
    rw [success hok] at hroot
    exact congrArg Prod.fst (Option.some.inj hroot)
  · by_cases hw : w = []
    · subst hw
      have hroot := (stands hn).symm.trans finalState_root
      rw [success hok] at hroot
      exact ⟨congrArg Prod.snd (Option.some.inj hroot), fun h => absurd rfl h⟩
    · have hrests := finalState_rests (success hok) hw _ (stands hn)
      exact ⟨congrArg Prod.snd hrests, fun _ => congrArg Prod.fst hrests⟩
  · obtain ⟨place, hexists, hplace⟩ := finalState_place (failure herror)
    refine ⟨place, by simpa only [own?, Option.isSome_map] using hexists, fun w n hn => ?_⟩
    by_cases hw : w = []
    · subst hw
      have hroot := (stands hn).symm.trans finalState_root
      rw [failure herror] at hroot
      rw [if_pos List.nil_prefix]
      exact Prod.ext_iff.mp (Option.some.inj hroot)
    · obtain ⟨hin, hout⟩ := hplace w hw
      split
      · rename_i h
        exact Prod.ext_iff.mp ((hin h).standing _ (stands hn))
      · rename_i h
        have hrests := hout h _ (stands hn)
        refine ⟨?_, congrArg Prod.snd hrests⟩
        rw [show n.status = _ from congrArg Prod.fst hrests]
        split
        · exact .inr rfl
        · exact .inl rfl

/-- A step that asks to leave a loop where there is none, inside another step. -/
theorem run_tree_outside :
    let leave := Step.bare "leave" none .leaveLoop []
    let pipeline := Pipeline.bare "main"
      [.bare "first" none .idle [], .bare "group" none .idle [leave]]
    let p := Program.bare .default pipeline
    ∃ r after tree, Engine.run p "main" (.bare .empty) = (r, after) ∧ after.runs = [tree] ∧
      (tree.node? [1, 0]).map Progress.name = some "leave" ∧
      ∀ w n, tree.node? w = some n → n.status ≠ .running ∧ n.Calm := by
  intro leave pipeline p
  have hp : p.document.pipeline? "main" = some pipeline := rfl
  obtain ⟨r, after, tree, hrun, hruns, hnames, hcalm, -⟩ := run_tree hp rfl (.bare .empty)
  exact ⟨r, after, tree, hrun, hruns, hnames [1, 0], hcalm⟩

end Workflow
