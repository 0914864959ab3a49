import Workflow.Proofs.Pipeline.Edges
import Workflow.Proofs.Run.Reach

/-!
# Runs without cycles

If the jumps of a pipeline lead forward, then so do the jumps of its runs, and while a block is
active its steps are started in the order of their positions: no step is started twice. A pipeline
that is not refused although cycles are rejected has this property.
-/
namespace Workflow
variable {σ π : Type}

/-- Whether an event leads forward, if it is about a jump. -/
def Event.Ahead : Event → Prop
  | .aimed _ source target | .jumped _ source target => source < target
  | _ => True

/-- The positions of the steps that have been started since a block was entered last, the latest
first. -/
def starts (way : List Nat) : List Event → List Nat
  | [] => []
  | .entered block :: log => if block = way then [] else starts way log
  | .started step :: log =>
    if step.dropLast = way then step.getLast?.toList ++ starts way log else starts way log
  | _ :: log => starts way log

theorem starts_enter (way : List Nat) (log : List Event) :
    starts way (.entered way :: log) = [] :=
  if_pos rfl

theorem starts_self (way : List Nat) (i : Nat) (log : List Event) :
    starts way (.started (way ++ [i]) :: log) = i :: starts way log := by
  simp [starts]

theorem starts_of_ne {way v : List Nat} (h : way ≠ v) (i : Nat) (log : List Event) :
    starts v (.started (way ++ [i]) :: log) = starts v log := by
  simp [starts, h]

theorem starts_perform {p : Program σ π} {step : String} {action : Action} {s t : RunState σ π}
    {r : Except RunError Program.Outcome} (h : p.perform step action s = (r, t)) (v : List Nat) :
    starts v t.log = starts v s.log := by
  obtain ⟨new, hl, hn⟩ := Program.perform_log h
  rw [hl]
  clear hl
  induction new with
  | nil => rfl
  | cons e new ih =>
    rw [List.cons_append, ← ih fun e he => hn e (List.mem_cons_of_mem _ he)]
    rcases hn e List.mem_cons_self with hw | ⟨c, rfl⟩
    · cases e <;> first | rfl | cases hw
    · rfl

theorem starts_settle (s : RunState σ π) (v : List Nat) :
    starts v s.settle.log = starts v s.log := by
  rw [RunState.settle_log]
  cases s.request <;> rfl

/-- The log of a call for a step begins with its start. -/
def Call.announce (c : Call) (log : List Event) : List Event :=
  match c with
  | .step _ way => .started way :: log
  | _ => log

/-- A call concerns no activation but those of the blocks below. -/
theorem Runs.starts_eq {p : Program σ π} {c : Call} {s t : RunState σ π}
    {r : Except RunError (Option String)} (h : Runs p c s r t) {v : List Nat} (hv : ¬c.way <+: v) :
    starts v t.log = starts v (c.announce s.log) := by
  have ne {way : List Nat} (h : ¬way <+: v) : way ≠ v := by
    rintro rfl
    exact h List.prefix_rfl
  have longer {way : List Nat} {i : Nat} (h : ¬way <+: v) : ¬(way ++ [i]) <+: v :=
    fun hp => h ((List.prefix_append _ _).trans hp)
  induction h with
  | block _ ih => exact (ih hv).trans (if_neg (ne hv))
  | finished _ => rfl
  | skipped _ _ => rfl
  | failed _ _ _ ih => exact (ih (longer hv)).trans (starts_of_ne (ne hv) _ _)
  | next _ _ _ _ ih ih' =>
    exact (ih' hv).trans ((ih (longer hv)).trans (starts_of_ne (ne hv) _ _))
  | lost _ _ _ _ ih => exact (ih (longer hv)).trans (starts_of_ne (ne hv) _ _)
  | stopped _ _ _ _ _ ih => exact (ih (longer hv)).trans (starts_of_ne (ne hv) _ _)
  | jump _ _ _ _ _ _ ih ih' =>
    exact (ih' hv).trans ((ih (longer hv)).trans (starts_of_ne (ne hv) _ _))
  | once _ _ ih => exact ih hv
  | each _ _ ih => exact ih hv
  | refused h => exact starts_perform h v
  | alone h _ => exact starts_perform h v
  | inside h _ _ _ ih => exact (ih hv).trans (starts_perform h v)
  | broken h _ _ _ ih => exact (ih hv).trans (starts_perform h v)
  | unread _ => rfl
  | noList _ _ => rfl
  | empty _ => rfl
  | list _ _ _ ih => exact ih hv
  | ended _ => rfl
  | torn _ _ ih => exact ih hv
  | left _ _ _ ih => exact (starts_settle _ v).trans (ih hv)
  | turn _ _ _ _ ih ih' => exact (ih' hv).trans ((starts_settle _ v).trans (ih hv))

/-- The jumps of a log lead forward, and steps are started in the order of their positions as long
as a block is active. -/
structure Ascending (log : List Event) : Prop where
  ahead : ∀ e ∈ log, e.Ahead
  rising : ∀ l, l <:+ log → ∀ way, (starts way l).Pairwise (· > ·)

namespace Ascending
variable {log : List Event} {e : Event}

theorem cons (h : Ascending log) (he : e.Ahead)
    (hr : ∀ way, (starts way (e :: log)).Pairwise (· > ·)) : Ascending (e :: log) := by
  refine ⟨List.forall_mem_cons.mpr ⟨he, h.ahead⟩, fun l hl => ?_⟩
  rcases List.suffix_cons_iff.mp hl with rfl | hl
  · exact hr
  · exact h.rising l hl

/-- An event that is about no start. -/
theorem silent (h : Ascending log) (he : e.Ahead)
    (hs : ∀ way, starts way (e :: log) = starts way log) : Ascending (e :: log) :=
  h.cons he fun way => by
    rw [hs]
    exact h.rising log List.suffix_rfl way

theorem enter (h : Ascending log) (block : List Nat) : Ascending (.entered block :: log) := by
  refine h.cons trivial fun way => ?_
  rw [starts]
  split
  · exact List.Pairwise.nil
  · exact h.rising log List.suffix_rfl way

theorem start (h : Ascending log) {way : List Nat} {i : Nat}
    (hi : ∀ k ∈ starts way log, k < i) : Ascending (.started (way ++ [i]) :: log) := by
  refine h.cons trivial fun v => ?_
  by_cases hv : way = v
  · subst hv
    rw [starts_self]
    exact List.pairwise_cons.mpr ⟨hi, h.rising log List.suffix_rfl way⟩
  · rw [starts_of_ne hv]
    exact h.rising log List.suffix_rfl v

theorem perform {p : Program σ π} {step : String} {action : Action} {s t : RunState σ π}
    {r : Except RunError Program.Outcome} (h : Ascending s.log)
    (ha : p.perform step action s = (r, t)) : Ascending t.log := by
  obtain ⟨new, hl, hn⟩ := Program.perform_log ha
  rw [hl]
  clear hl
  induction new with
  | nil => exact h
  | cons e new ih =>
    have hrest := ih fun e he => hn e (List.mem_cons_of_mem _ he)
    rcases hn e List.mem_cons_self with hw | ⟨c, rfl⟩
    · cases e with
      | called | stored => exact hrest.silent trivial fun _ => rfl
      | _ => cases hw
    · exact hrest.silent trivial fun _ => rfl

theorem settle {s : RunState σ π} (h : Ascending s.log) : Ascending s.settle.log := by
  rw [RunState.settle_log]
  cases s.request with
  | none => exact h
  | some control => exact h.silent trivial fun _ => rfl

end Ascending

/-- The jumps inside what a call is about lead forward. -/
def Call.Forward : Call → Prop
  | .block steps _ | .rest steps _ _ => Workflow.Forward steps
  | .step st _ | .body st _ | .loop st _ _ | .turns st _ => Workflow.Forward st.steps

/-- The log before a call has ascended, and what the call starts first comes later. -/
def Call.Ascends (log : List Event) : Call → Prop
  | .rest _ way i => Ascending log ∧ ∀ k ∈ starts way log, k < i
  | .step _ way => Ascending (.started way :: log)
  | _ => Ascending log

namespace Runs
variable {p : Program σ π} {c : Call} {s t : RunState σ π} {r : Except RunError (Option String)}

theorem turns_result {step : Step} {way : List Nat} {v : Option String}
    (h : Runs p (.turns step way) s (.ok v) t) : v = none := by
  generalize hc : Call.turns step way = c at h
  generalize hr : (Except.ok v : Except RunError (Option String)) = r at h
  induction h with
  | ended => cases hr; rfl
  | left => cases hr; rfl
  | torn => cases hr
  | turn _ _ _ _ _ ih => exact ih hc hr
  | _ => cases hc

theorem loop_result {step : Step} {expression : String} {way : List Nat} {v : Option String}
    (h : Runs p (.loop step expression way) s (.ok v) t) : v = none := by
  cases h with
  | empty => rfl
  | list _ _ h => exact h.turns_result

/-- Only a jump asks its block for a jump. -/
theorem step_jump {step : Step} {way : List Nat} {target : String}
    (h : Runs p (.step step way) s (.ok (some target)) t) :
    ∃ condition, step.action = .jump target condition := by
  have follows {s t : RunState σ π} {o : Program.Outcome}
      (h : p.perform step.name step.action s = (.ok o, t)) (ho : o.jump = some target) :
      ∃ condition, step.action = .jump target condition := by
    rcases Program.perform_cases h with ⟨-, hf, -⟩ | ⟨control, -, hr, -⟩
    · exact hf o rfl target ho
    · cases hr
      cases ho
  generalize hr : (Except.ok (some target) : Except RunError (Option String)) = r at h
  cases h with
  | each _ h =>
    subst hr
    cases h.loop_result
  | once _ h =>
    cases h with
    | alone h => exact follows h (Except.ok.inj hr).symm
    | inside h => exact follows h (Except.ok.inj hr).symm
    | refused => cases hr
    | broken => cases hr

/-- A step starts itself in its block, and else what is below it. -/
theorem starts_step {step : Step} {way : List Nat} {i : Nat}
    (h : Runs p (.step step (way ++ [i])) s r t) :
    starts way t.log = i :: starts way s.log := by
  have hlong : ¬(way ++ [i]) <+: way := by
    intro hp
    have hlength := hp.length_le
    rw [List.length_append, List.length_singleton] at hlength
    omega
  rw [h.starts_eq hlong, Call.announce, starts_self]

/-- A step comes after all that its block has started before. -/
theorem starts_le {steps : List Step} {step : Step} {way : List Nat} {i : Nat}
    (h : Runs p (.step step (way ++ [i])) s r t) (hs : (Call.rest steps way i).Ascends s.log)
    {k : Nat} (hk : k ∈ starts way t.log) : k ≤ i := by
  rw [h.starts_step] at hk
  rcases List.mem_cons.mp hk with rfl | hk
  · exact Nat.le_refl _
  · exact Nat.le_of_lt (hs.2 k hk)

theorem ahead {steps : List Step} {step : Step} {way : List Nat} {i j : Nat} {target : String}
    (h : Runs p (.step step (way ++ [i])) s (.ok (some target)) t)
    (hf : Workflow.Forward steps) (hi : steps[i]? = some step)
    (hj : position? steps target = some j) : i < j := by
  obtain ⟨condition, haction⟩ := h.step_jump
  exact hf steps .here i step target condition j hi haction hj

theorem ascending (h : Runs p c s r t) (hf : c.Forward) (hs : c.Ascends s.log) :
    Ascending t.log := by
  induction h with
  | block _ ih =>
    refine ih hf ⟨hs.enter _, fun k hk => ?_⟩
    rw [RunState.note, starts_enter] at hk
    cases hk
  | finished _ => exact hs.1
  | skipped _ _ => exact hs.1
  | failed hi _ _ ih => exact ih (hf.inside (List.mem_of_getElem? hi)) (hs.1.start hs.2)
  | next hi _ h _ ih ih' =>
    have ht := ih (hf.inside (List.mem_of_getElem? hi)) (hs.1.start hs.2)
    exact ih' hf ⟨ht, fun k hk => Nat.lt_succ_of_le (h.starts_le hs hk)⟩
  | lost hi _ _ _ ih => exact ih (hf.inside (List.mem_of_getElem? hi)) (hs.1.start hs.2)
  | stopped hi _ h hj _ ih =>
    have ht := ih (hf.inside (List.mem_of_getElem? hi)) (hs.1.start hs.2)
    exact ht.silent (h.ahead hf hi hj) fun _ => rfl
  | jump hi _ h hj _ _ ih ih' =>
    have ht := ih (hf.inside (List.mem_of_getElem? hi)) (hs.1.start hs.2)
    have hij := h.ahead hf hi hj
    refine ih' hf ⟨?_, fun k hk => Nat.lt_of_le_of_lt (h.starts_le hs hk) hij⟩
    exact (ht.silent (e := .aimed _ _ _) hij fun _ => rfl).silent (e := .jumped _ _ _) hij
      fun _ => rfl
  | once _ _ ih => exact ih hf hs
  | each _ _ ih => exact ih hf hs
  | refused h => exact hs.perform h
  | alone h _ => exact hs.perform h
  | inside h _ _ _ ih => exact ih hf (hs.perform h)
  | broken h _ _ _ ih => exact ih hf (hs.perform h)
  | unread _ => exact hs
  | noList _ _ => exact hs
  | empty _ => exact hs
  | list _ _ _ ih =>
    have ht := ih hf (hs.silent (e := .opened _ _) trivial fun _ => rfl)
    exact ht.silent (e := .closed) trivial fun _ => rfl
  | ended _ => exact hs
  | torn _ _ ih => exact ih hf (hs.silent (e := .turned _) trivial fun _ => rfl)
  | left _ _ _ ih =>
    have ht := ih hf (hs.silent (e := .turned _) trivial fun _ => rfl)
    exact Ascending.settle (s := RunState.endTurn _ _ _ _ _) ht
  | turn _ _ _ _ ih ih' =>
    have ht := ih hf (hs.silent (e := .turned _) trivial fun _ => rfl)
    exact ih' hf (Ascending.settle (s := RunState.endTurn _ _ _ _ _) ht)

end Runs

/-- A pipeline is only refused for a cycle that is found in it. -/
theorem Engine.refusal_eq_some {p : Program σ π} {pipeline : Pipeline} {cause : RunError}
    (h : refusal p pipeline = some cause) :
    ∃ cycle ∈ (ControlGraph.ofDocument p.document).cyclesIn pipeline.name,
      cause = .cycleRejected pipeline.name cycle := by
  unfold refusal at h
  split at h
  · obtain ⟨cycle, hcycle, rfl⟩ := Option.map_eq_some_iff.mp h
    exact ⟨cycle, List.mem_of_head? hcycle, rfl⟩
  · cases h

/-- A run that reports no cycle is of a pipeline that is not refused. -/
theorem Engine.refusal_of_run {p : Program σ π} {name : String} {pipeline : Pipeline}
    {e : Engine σ π} (hp : p.document.pipeline? name = some pipeline)
    (h : ∀ q cycle, (run p name e).1 ≠ .error (.cycleRejected q cycle)) :
    refusal p pipeline = none := by
  cases hr : refusal p pipeline with
  | none => rfl
  | some cause =>
    obtain ⟨cycle, -, rfl⟩ := refusal_eq_some hr
    refine absurd ?_ (h pipeline.name cycle)
    rw [run, hp]
    dsimp only
    rw [Attempt.bind_apply, runPipeline, hr]

/-- If cycles are rejected and the pipeline is run, all jumps of the run lead to later positions of
their blocks, and no step is started twice while its block is active. -/
theorem jumps_forward {p : Program σ π} {name : String} {pipeline : Pipeline} {e : Engine σ π}
    (hp : p.document.pipeline? name = some pipeline) (hc : p.config.rejectCycles = true)
    (h : ∀ q cycle, (Engine.run p name e).1 ≠ .error (.cycleRejected q cycle)) :
    (∀ way i j, .jumped way i j ∈ (Engine.execution p pipeline e).2.log → i < j) ∧
      ∀ log, log <:+ (Engine.execution p pipeline e).2.log →
        ∀ way, (starts way log).Nodup := by
  have hrefusal := Engine.refusal_of_run hp h
  rw [Engine.refusal, if_pos hc, Option.map_eq_none_iff, List.head?_eq_none_iff] at hrefusal
  have hforward : Forward pipeline.steps :=
    ControlGraph.forward_of_cyclesIn (List.mem_of_find?_eq_some hp) hrefusal
  have hlog := (Engine.execution_runs p pipeline e).ascending hforward ⟨?_, ?_⟩
  · refine ⟨fun way i j hm => hlog.ahead _ hm, fun log hl way => ?_⟩
    exact (hlog.rising log hl way).imp fun hab => Nat.ne_of_gt hab
  · exact fun e he => by cases he
  · intro l hl way
    rw [List.suffix_nil.mp hl]
    exact List.Pairwise.nil

/-- A jump over a step. -/
theorem jumps_forward_over :
    let steps := [Step.bare "skip" none (.jump "last" none) [], .bare "middle" none .idle [],
      .bare "last" none .idle []]
    let pipeline := Pipeline.bare "main" steps
    let p := Program.bare ⟨1, "pipeline", true⟩ pipeline
    (∀ way i j, .jumped way i j ∈ (Engine.execution p pipeline (.bare .empty)).2.log → i < j) ∧
      ∀ log, log <:+ (Engine.execution p pipeline (.bare .empty)).2.log →
        ∀ way, (starts way log).Nodup := by
  intro steps pipeline p
  have hp : p.document.pipeline? "main" = some pipeline := rfl
  refine jumps_forward hp rfl fun q cycle hrun => ?_
  have hrefusal : Engine.refusal p pipeline = none := by decide
  have hblock : Runs p (.block steps []) ((Engine.bare .empty).beginRun pipeline) (.ok none) _ :=
    .block (.jump rfl rfl (.once rfl (.alone (o := ⟨some "last", true⟩) rfl (.inr rfl)))
      (j := 2) rfl (Nat.le_refl 1) (.next rfl rfl
        (.once rfl (.alone (o := .proceed) rfl (.inr rfl))) (.finished rfl)))
  have hresult := ((Engine.execution_runs p pipeline (.bare .empty)).unique hblock).1
  rw [Engine.run, hp] at hrun
  dsimp only at hrun
  rw [Attempt.bind_apply, Engine.runPipeline, hrefusal] at hrun
  dsimp only at hrun
  cases hx : (Engine.execution p pipeline (.bare .empty)).1 with
  | error cause =>
    rw [hx] at hresult
    cases hresult
  | ok v =>
    rw [hx] at hrun
    cases hrun

end Workflow
