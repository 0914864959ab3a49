import Workflow.Proofs.Run.Tree

/-!
# The calls of a run

A call makes other calls, and those make others again. Whatever a call of a run is about has its
place in the tree of the run, and a step is only called for when nothing asks to leave an iteration.
-/
namespace Workflow
open Relation
variable {σ π : Type}

/-- A call makes another one, each in a state. -/
inductive Makes (p : Program σ π) : Call × RunState σ π → Call × RunState σ π → Prop
  | block {steps way s} : Makes p (.block steps way, s) (.rest steps way 0, s.note (.entered way))
  | step {steps way i s step} : steps[i]? = some step → s.request = none →
      Makes p (.rest steps way i, s) (.step step (way ++ [i]), s)
  | next {steps way i s step t} : steps[i]? = some step → s.request = none →
      Runs p (.step step (way ++ [i])) s (.ok none) t →
      Makes p (.rest steps way i, s) (.rest steps way (i + 1), t)
  | jump {steps way i s step target t j} : steps[i]? = some step → s.request = none →
      Runs p (.step step (way ++ [i])) s (.ok (some target)) t → position? steps target = some j →
      t.jumps + 1 ≤ p.config.maxJumps →
      Makes p (.rest steps way i, s)
        (.rest steps way j, (t.aim way i j).note (.jumped way i j))
  | once {step way s} : step.iterate = none →
      Makes p (.step step way, s) (.body step way, s.begin way)
  | each {step way s expression} : step.iterate = some expression →
      Makes p (.step step way, s) (.loop step expression way, s.begin way)
  | inside {step way s o t} : p.perform step.name step.action s = (.ok o, t) → o.descend = true →
      step.steps ≠ [] → Makes p (.body step way, s) (.block step.steps way, t)
  | list {step expression way s items} :
      Expression.evaluate expression s.context = .ok (.arr items) → items ≠ [] →
      Makes p (.loop step expression way, s)
        (.turns step way, (s.startLoop way items).push way ⟨step.name, items, 0⟩)
  | item {step way s k item} : s.currentItem? = some (k, item) →
      Makes p (.turns step way, s) (.body step way, s.beginTurn way k item)
  | turn {step way s k item v t} : s.currentItem? = some (k, item) →
      Runs p (.body step way) (s.beginTurn way k item) (.ok v) t → t.request ≠ some .leaveLoop →
      Makes p (.turns step way, s)
        (.turns step way, (t.endTurn way k .completed s.context).settle.advance)

/-- The run of a pipeline makes a call in a state. -/
def Reaches (p : Program σ π) (pipeline : Pipeline) (e : Engine σ π) (c : Call)
    (s : RunState σ π) : Prop :=
  ReflTransGen (Makes p) (.block pipeline.steps [], e.beginRun pipeline) (c, s)

/-- A tree has the node of what a call is about. -/
def Call.Fits (tree : Progress) : Call → Prop
  | .block steps way | .rest steps way _ =>
    ∃ n, tree.node? way = some n ∧ n.children = Progress.ofSteps steps
  | .step st way | .body st way | .loop st _ way | .turns st way =>
    tree.node? way = some (Progress.ofStep st)

/-- What a call is about stands inside a block. -/
def Call.Belongs (outermost : List Step) : Call → Prop
  | .block steps _ | .rest steps _ _ => Inside outermost steps
  | .step st _ | .body st _ | .loop st _ _ | .turns st _ =>
    ∃ block, Inside outermost block ∧ st ∈ block

namespace Makes
open RunState
variable {p : Program σ π} {c d : Call} {s t : RunState σ π}

theorem changes (h : Makes p (c, s) (d, t)) : ReflTransGen (Alters p) s t := by
  cases h with
  | block => exact .single (.enter _ _)
  | step => exact .refl
  | next _ _ h => exact h.changes
  | jump _ _ h => exact (h.changes.tail (.aim _ _ _ _)).tail (.jump _ _ _ _)
  | once => exact .single (.begin _ _)
  | each => exact .single (.begin _ _)
  | inside h => exact .single (.act h)
  | list => exact (ReflTransGen.single (.startLoop _ _ _)).tail (.push _ _ _)
  | item => exact .single (.beginTurn _ _ _ _)
  | turn _ h =>
    exact .head (.beginTurn _ _ _ _)
      (((h.changes.tail (.endTurn _ _ _ _ _)).tail (.settle _)).tail (.advance _))

theorem fits (h : Makes p (c, s) (d, t)) {tree : Progress} (hc : c.Fits tree) : d.Fits tree := by
  cases h with
  | step hs =>
    obtain ⟨n, hn, hchildren⟩ := hc
    change tree.node? (_ ++ [_]) = _
    rw [Progress.node?_append, hn, Option.bind_some, Progress.node?, hchildren,
      Progress.ofSteps_eq_map, List.getElem?_map, hs]
    rfl
  | inside => exact ⟨_, hc, Progress.ofStep_children _⟩
  | _ => exact hc

theorem belongs (h : Makes p (c, s) (d, t)) {outermost : List Step} (hc : c.Belongs outermost) :
    d.Belongs outermost := by
  cases h with
  | step hs => exact ⟨_, hc, List.mem_of_getElem? hs⟩
  | inside =>
    obtain ⟨block, hblock, hstep⟩ := hc
    exact .step hblock hstep
  | _ => exact hc

end Makes

namespace RunState
variable {s t : RunState σ π} {w : List Nat} {past : List Event}

theorem started_of_append {new log : List Event} (hn : .started w ∉ new)
    (hw : .started w :: past <:+ new ++ log) : .started w :: past <:+ log := by
  induction new with
  | nil => exact hw
  | cons e new ih =>
    rcases List.suffix_cons_iff.mp hw with heq | hw
    · cases heq
      exact absurd List.mem_cons_self hn
    · exact ih (fun hm => hn (List.mem_cons_of_mem _ hm)) hw

theorem started_of_perform {p : Program σ π} {step : String} {action : Action}
    {r : Except RunError Program.Outcome} (h : p.perform step action s = (r, t))
    (hw : .started w :: past <:+ t.log) : .started w :: past <:+ s.log := by
  obtain ⟨new, hl, hn⟩ := Program.perform_log h
  rw [hl] at hw
  refine started_of_append (fun hm => ?_) hw
  rcases hn _ hm with hwork | ⟨c, hc⟩
  · cases hwork
  · cases hc

theorem started_of_turn {way : List Nat} {k : Nat} {status : Status} {outer : Table Json}
    (hw : .started w :: past <:+ (s.endTurn way k status outer).settle.log) :
    .started w :: past <:+ s.log := by
  rw [settle_log] at hw
  exact started_of_append (by simp) hw

theorem started_of_note {e : Event} (he : e ≠ .started w)
    (hw : .started w :: past <:+ (s.note e).log) : .started w :: past <:+ s.log :=
  started_of_append (show .started w ∉ [e] by simpa using he.symm) hw

end RunState

namespace Runs
open RunState
variable {p : Program σ π} {c : Call} {s t : RunState σ π}
  {r : Except RunError (Option String)} {w : List Nat} {past : List Event}

/-- What a call starts, it calls for, if not directly, and the log is then what comes before the
start. -/
theorem started (h : Runs p c s r t) (hw : .started w :: past <:+ t.log) :
    .started w :: past <:+ s.log ∨
      ∃ step u, ReflTransGen (Makes p) (c, s) (.step step w, u) ∧ u.log = past := by
  have up {x y : Call × RunState σ π} (hm : Makes p x y) :
      (∃ step v, ReflTransGen (Makes p) y (.step step w, v) ∧ v.log = past) →
        ∃ step v, ReflTransGen (Makes p) x (.step step w, v) ∧ v.log = past :=
    fun ⟨step, v, hd, hv⟩ => ⟨step, v, .head hm hd, hv⟩
  have start {step : Step} {way : List Nat} {s : RunState σ π}
      (hb : .started w :: past <:+ (s.begin way).log ∨
        ∃ inner v, ReflTransGen (Makes p) (.step step way, s) (.step inner w, v) ∧ v.log = past) :
      .started w :: past <:+ s.log ∨
        ∃ inner v, ReflTransGen (Makes p) (.step step way, s) (.step inner w, v) ∧
          v.log = past := by
    rcases hb with hb | hb
    · rcases List.suffix_cons_iff.mp hb with heq | hb
      · cases heq
        exact .inr ⟨step, s, .refl, rfl⟩
      · exact .inl hb
    · exact .inr hb
  induction h with
  | block _ ih => exact (ih hw).imp (started_of_note (by simp)) (up .block)
  | finished _ => exact .inl hw
  | skipped _ _ => exact .inl hw
  | failed hs hq _ ih => exact (ih hw).imp_right (up (.step hs hq))
  | next hs hq h _ ih ih' =>
    rcases ih' hw with hw | hd
    · exact (ih hw).imp_right (up (.step hs hq))
    · exact .inr (up (.next hs hq h) hd)
  | lost hs hq _ _ ih => exact (ih hw).imp_right (up (.step hs hq))
  | stopped hs hq _ _ _ ih =>
    exact (ih (started_of_note (by simp) hw)).imp_right (up (.step hs hq))
  | jump hs hq h ht hl _ ih ih' =>
    rcases ih' hw with hw | hd
    · refine (ih ?_).imp_right (up (.step hs hq))
      exact started_of_note (by simp) (started_of_note (by simp) hw)
    · exact .inr (up (.jump hs hq h ht hl) hd)
  | once hi _ ih => exact start ((ih hw).imp_right (up (.once hi)))
  | each hi _ ih => exact start ((ih hw).imp_right (up (.each hi)))
  | refused h => exact .inl (started_of_perform h hw)
  | alone h _ => exact .inl (started_of_perform h hw)
  | inside h hd hne _ ih => exact (ih hw).imp (started_of_perform h) (up (.inside h hd hne))
  | broken h hd hne _ ih => exact (ih hw).imp (started_of_perform h) (up (.inside h hd hne))
  | unread _ => exact .inl hw
  | noList _ _ => exact .inl hw
  | empty _ => exact .inl hw
  | list he hi _ ih =>
    refine (ih (started_of_note (by simp) hw)).imp (fun hw => ?_) (up (.list he hi))
    exact started_of_note (by simp) hw
  | ended _ => exact .inl hw
  | torn hi _ ih => exact (ih hw).imp (started_of_note (by simp)) (up (.item hi))
  | left hi _ _ ih =>
    exact (ih (started_of_turn hw)).imp (started_of_note (by simp)) (up (.item hi))
  | turn hi h hl _ ih ih' =>
    rcases ih' hw with hw | hd
    · exact (ih (started_of_turn hw)).imp (started_of_note (by simp)) (up (.item hi))
    · exact .inr (up (.turn hi h hl) hd)

end Runs

namespace Reaches
open RunState
variable {p : Program σ π} {pipeline : Pipeline} {e : Engine σ π} {c : Call} {s : RunState σ π}

/-- What holds at the beginning of a run, and below every call of which it holds, holds of all the
calls of the run. -/
theorem induct {P : Call → RunState σ π → Prop}
    (start : P (.block pipeline.steps []) (e.beginRun pipeline))
    (step : ∀ c s d t, P c s → Makes p (c, s) (d, t) → P d t)
    (h : Reaches p pipeline e c s) : P c s := by
  suffices hx : ∀ x, ReflTransGen (Makes p) (.block pipeline.steps [], e.beginRun pipeline) x →
      P x.1 x.2 from hx _ h
  intro x hx
  induction hx with
  | refl => exact start
  | tail _ hm ih => exact step _ _ _ _ ih hm

theorem changes (h : Reaches p pipeline e c s) :
    ReflTransGen (Alters p) (e.beginRun pipeline) s := by
  refine h.induct (P := fun _ t => ReflTransGen (Alters p) (e.beginRun pipeline) t) .refl ?_
  intro c s d t hs hm
  exact hs.trans hm.changes

theorem fits (h : Reaches p pipeline e c s) : c.Fits (e.beginRun pipeline).progress := by
  refine h.induct (P := fun d _ => d.Fits (e.beginRun pipeline).progress) ⟨_, rfl, rfl⟩ ?_
  intro c s d t hc hm
  exact hm.fits hc

/-- A run is about the steps of its pipeline, and those inside them. -/
theorem belongs (h : Reaches p pipeline e c s) : c.Belongs pipeline.steps :=
  h.induct (P := fun d _ => d.Belongs pipeline.steps) .here fun _ _ _ _ hc hm => hm.belongs hc

/-- The tree of a run has the nodes that it has begun with. -/
theorem nodes (h : Reaches p pipeline e c s) (w : List Nat) :
    (s.own? w).isSome = ((e.beginRun pipeline).own? w).isSome := by
  have hs := h.changes
  clear h
  induction hs with
  | refl => rfl
  | tail _ hs ih => rw [hs.nodes, ih]

/-- A step has a node, and is only called for when nothing asks to leave an iteration. -/
theorem step {step : Step} {way : List Nat} (h : Reaches p pipeline e (.step step way) s) :
    s.request = none ∧ ∃ n, s.own? way = some n := by
  constructor
  · rcases h.cases_tail with hs | ⟨_, _, hm⟩
    · cases hs
    · cases hm with
      | step _ hq => exact hq
  · refine Option.isSome_iff_exists.mp ?_
    have hn : (e.beginRun pipeline).progress.node? way = some (Progress.ofStep step) := h.fits
    rw [h.nodes, own?, hn]
    rfl

/-- Every step that a run starts is called for when it has done what comes before in the log. -/
theorem of_started_suffix {w : List Nat} {past : List Event}
    (h : .started w :: past <:+ (Engine.execution p pipeline e).2.log) :
    ∃ step s, Reaches p pipeline e (.step step w) s ∧ s.log = past := by
  rcases (Engine.execution_runs p pipeline e).started h with hw | hd
  · cases List.suffix_nil.mp hw
  · exact hd

theorem of_started {w : List Nat} (h : .started w ∈ (Engine.execution p pipeline e).2.log) :
    ∃ step s, Reaches p pipeline e (.step step w) s := by
  obtain ⟨later, past, hlog⟩ := List.append_of_mem h
  obtain ⟨step, s, hs, -⟩ := of_started_suffix ⟨later, hlog.symm⟩
  exact ⟨step, s, hs⟩

end Reaches

/-- A program of a single pipeline, with no plugins and nothing around its store. -/
def Program.bare (config : ExecutorConfig) (pipeline : Pipeline) : Program Unit Unit where
  document := ⟨[pipeline]⟩
  environment := ⟨none, none, none, 0⟩
  plugins := .empty
  config
  actor := .system

def Engine.bare (context : Table Json) : Engine Unit Unit :=
  .start ⟨.empty, [], .disabled, default, .empty 0, default, default, ()⟩ () context

def Pipeline.bare (name : String) (steps : List Step) : Pipeline :=
  ⟨name, none, steps, true, .sequential, none⟩

def Step.bare (name : String) (iterate : Option String) (action : Action) (steps : List Step) :
    Step :=
  ⟨name, none, iterate, action, steps⟩

def Action.idle : Action := .plugin ⟨none, .empty, none, none⟩

end Workflow
