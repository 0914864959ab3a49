import Workflow.Proofs.Expression.Scan
import Workflow.Proofs.Run.Jumps

/-!
# The transitions of a run

A block starts its first step when it is entered, and then the step that follows the one before, or
the target of its jump. The control graph has an edge for each of these transitions. So a run that
is seen by the starts of its steps walks along the edges of the graph: in every block from one step
to the next, and from a step to the first step inside it.
-/
namespace Workflow
open ControlGraph
variable {σ π : Type}

/-- The control graph of a document leads from the node at the end of a way to that of another. -/
def Leads (d : PipelineDocument) (pipeline : Pipeline) (way next : List Nat) : Prop :=
  ∃ a b, pipeline.nodeAt? way = some a ∧ pipeline.nodeAt? next = some b ∧
    b ∈ (ofDocument d).successors a

/-- How a block comes to the step at a position, when it has started the steps at some positions,
the latest first. -/
inductive Continues (steps : List Step) : List Nat → Nat → Prop
  | first : Continues steps [] 0
  | next {i earlier st} : steps[i]? = some st → Continues steps (i :: earlier) (i + 1)
  | jump {i earlier st target condition j} : steps[i]? = some st →
      st.action = .jump target condition → position? steps target = some j →
      Continues steps (i :: earlier) j

/-- The place in a pipeline of what a call is about, and how its block comes to it. -/
def Call.Placed (pipeline : Pipeline) (log : List Event) : Call → Prop
  | .block steps way => ∃ scope, blockAt? pipeline.name pipeline.steps way = some (scope, steps)
  | .rest steps way i =>
    (∃ scope, blockAt? pipeline.name pipeline.steps way = some (scope, steps)) ∧
      Continues steps (starts way log) i
  | .step st way =>
    ∃ outer i scope steps, way = outer ++ [i] ∧
      blockAt? pipeline.name pipeline.steps outer = some (scope, steps) ∧ steps[i]? = some st ∧
      Continues steps (starts outer log) i
  | .body st way | .loop st _ way | .turns st way =>
    ∃ scope, blockAt? pipeline.name pipeline.steps way = some (scope, st.steps)

theorem Makes.placed {p : Program σ π} {c d : Call} {s t : RunState σ π} {pipeline : Pipeline}
    (h : Makes p (c, s) (d, t)) (hc : c.Placed pipeline s.log) : d.Placed pipeline t.log := by
  have below {st : Step} {way : List Nat} {log : List Event}
      (hc : (Call.step st way).Placed pipeline log) :
      ∃ scope, blockAt? pipeline.name pipeline.steps way = some (scope, st.steps) := by
    obtain ⟨outer, i, scope, steps, rfl, hb, hi, -⟩ := hc
    exact ⟨qualify scope st.name, by rw [blockAt?_append hb, hi]; rfl⟩
  cases h with
  | block =>
    refine ⟨hc, ?_⟩
    rw [RunState.note, starts_enter]
    exact .first
  | step hs =>
    obtain ⟨⟨scope, hb⟩, hi⟩ := hc
    exact ⟨_, _, scope, _, rfl, hb, hs, hi⟩
  | next hs _ h =>
    refine ⟨hc.1, ?_⟩
    rw [h.starts_step]
    exact .next hs
  | @jump _ _ _ _ _ _ t _ hs _ h hj =>
    obtain ⟨condition, haction⟩ := h.step_jump
    refine ⟨hc.1, ?_⟩
    change Continues _ (starts _ t.log) _
    rw [h.starts_step]
    exact .jump hs haction hj
  | once => exact below hc
  | each => exact below hc
  | inside | list | item | turn => exact hc

theorem Reaches.placed {p : Program σ π} {pipeline : Pipeline} {e : Engine σ π} {c : Call}
    {s : RunState σ π} (h : Reaches p pipeline e c s) : c.Placed pipeline s.log :=
  h.induct (P := fun c s => c.Placed pipeline s.log) ⟨pipeline.name, rfl⟩
    fun _ _ _ _ hc hm => hm.placed hc

/-- The latest start of a block is in the log, after the other starts. -/
theorem starts_cons {way : List Nat} {log : List Event} {i : Nat} {earlier : List Nat}
    (h : starts way log = i :: earlier) :
    ∃ past, .started (way ++ [i]) :: past <:+ log ∧ starts way past = earlier := by
  induction log with
  | nil => cases h
  | cons event log ih =>
    have later (h : starts way log = i :: earlier) :
        ∃ past, .started (way ++ [i]) :: past <:+ event :: log ∧ starts way past = earlier := by
      obtain ⟨past, hpast, hstarts⟩ := ih h
      exact ⟨past, hpast.trans (List.suffix_cons _ _), hstarts⟩
    cases event with
    | entered block =>
      rw [starts] at h
      split at h
      · cases h
      · exact later h
    | started step =>
      rw [starts] at h
      split at h
      · rename_i hway
        rcases List.eq_nil_or_concat' step with rfl | ⟨outer, k, rfl⟩
        · exact later h
        · rw [List.dropLast_concat] at hway
          subst hway
          rw [List.getLast?_concat] at h
          cases h
          exact ⟨log, List.suffix_rfl, rfl⟩
      · exact later h
    | _ => exact later h

namespace Continues
variable {d : PipelineDocument} {pipeline : Pipeline} {way : List Nat} {scope : String}
  {steps : List Step} {earlier : List Nat} {j : Nat} {st : Step}

/-- From one step of a block to the next that is started, there is an edge. -/
theorem leads {i : Nat} (h : Continues steps (i :: earlier) j) (hp : pipeline ∈ d.pipelines)
    (hb : blockAt? pipeline.name pipeline.steps way = some (scope, steps))
    (hj : steps[j]? = some st) : Leads d pipeline (way ++ [i]) (way ++ [j]) := by
  have edge {before : Step} (hi : steps[i]? = some before)
      (he : ⟨qualify scope before.name, qualify scope st.name⟩ ∈ blockEdges scope steps steps) :
      Leads d pipeline (way ++ [i]) (way ++ [j]) :=
    ⟨_, _, Pipeline.nodeAt?_step hb hi, Pipeline.nodeAt?_step hb hj,
      (Located.of_blockAt? hb).successor hp he (mem_blockNames scope hj)⟩
  cases h with
  | next hi => exact edge hi (edge_next hi hj)
  | jump hi haction htarget => exact edge hi (edge_jump hi haction htarget hj)

/-- From a step to the first step that is started inside it, there is an edge. -/
theorem leads_inside (h : Continues steps [] j) (hp : pipeline ∈ d.pipelines)
    (hb : blockAt? pipeline.name pipeline.steps way = some (scope, steps))
    (hj : steps[j]? = some st) (hway : way ≠ []) : Leads d pipeline way (way ++ [j]) := by
  cases h
  obtain ⟨outer, k, rfl⟩ := (List.eq_nil_or_concat' way).resolve_left hway
  obtain ⟨⟨outside, block⟩, houter, around, hk, hinner⟩ := blockAt?_of_append hb
  cases hinner
  refine ⟨_, _, Pipeline.nodeAt?_step houter hk, Pipeline.nodeAt?_step hb hj, ?_⟩
  refine (Located.of_blockAt? houter).successor hp (edge_body hk hj) ?_
  have hnames := blockNames_sublist outside (List.mem_of_getElem? hk)
  exact List.mem_append_right _ (hnames.subset (mem_blockNames _ hj))

end Continues

/-- While a block is active, the control graph has an edge from each step that is started to the
next one, and from the step that the block is inside to the first. -/
theorem starts_lead {p : Program σ π} {name : String} {pipeline : Pipeline} {e : Engine σ π}
    (hp : p.document.pipeline? name = some pipeline) {log : List Event}
    (hl : log <:+ (Engine.execution p pipeline e).2.log) (way : List Nat) :
    (starts way log).IsChain
        (fun later earlier => Leads p.document pipeline (way ++ [earlier]) (way ++ [later])) ∧
      ∀ first ∈ (starts way log).getLast?, way ≠ [] →
        Leads p.document pipeline way (way ++ [first]) := by
  have hmem : pipeline ∈ p.document.pipelines := List.mem_of_find?_eq_some hp
  generalize hs : starts way log = positions
  induction positions generalizing log with
  | nil => exact ⟨.nil, nofun⟩
  | cons i earlier ih =>
    obtain ⟨past, hpast, hearlier⟩ := starts_cons hs
    obtain ⟨step, s, hreach, rfl⟩ := Reaches.of_started_suffix (hpast.trans hl)
    obtain ⟨outer, k, scope, steps, hway, hb, hk, hcontinues⟩ := hreach.placed
    obtain ⟨rfl, rfl⟩ := List.append_singleton_inj.mp hway
    rw [hearlier] at hcontinues
    obtain ⟨hchain, hfirst⟩ := ih (((List.suffix_cons _ _).trans hpast).trans hl) hearlier
    cases earlier with
    | nil =>
      refine ⟨.singleton _, fun first hf hne => ?_⟩
      cases hf
      exact hcontinues.leads_inside hmem hb hk hne
    | cons j earlier => exact ⟨.cons_cons (hcontinues.leads hmem hb hk) hchain, hfirst⟩

/-- A loop with a jump inside it, and a step after it. -/
theorem starts_lead_loop :
    let inside := [Step.bare "skip" none (.jump "last" none) [], .bare "middle" none .idle [],
      .bare "last" none .idle []]
    let steps := [Step.bare "each" (some "context.xs") .idle inside, .bare "end" none .idle []]
    let pipeline := Pipeline.bare "main" steps
    let p := Program.bare .default pipeline
    let log := (Engine.execution p pipeline (.bare ⟨[("xs", .arr [.null])]⟩)).2.log
    (starts [] log = [1, 0] ∧ Leads p.document pipeline [0] [1]) ∧
      starts [0] log = [2, 0] ∧ Leads p.document pipeline [0] [0, 0] ∧
        Leads p.document pipeline [0, 0] [0, 2] := by
  intro inside steps pipeline p log
  let e := Engine.bare ⟨[("xs", .arr [.null])]⟩
  have hlist :
      Expression.evaluate "context.xs" (e.beginRun pipeline).context = .ok (.arr [.null]) :=
    Expression.evaluate_path "xs".toList (by decide) (by decide) _
  have hrun : Runs p (.block steps []) (e.beginRun pipeline) (.ok none) _ :=
    .block (.next rfl rfl (.each rfl (.list hlist (by decide) (.turn rfl
      (.inside (o := .proceed) rfl rfl (by decide) (.block (.jump rfl rfl
        (.once rfl (.alone (o := ⟨some "last", true⟩) rfl (.inr rfl))) (j := 2) rfl (by decide)
        (.next rfl rfl (.once rfl (.alone (o := .proceed) rfl (.inr rfl))) (.finished rfl)))))
      (by decide) (.ended rfl))))
      (.next rfl rfl (.once rfl (.alone (o := .proceed) rfl (.inr rfl))) (.finished rfl)))
  have hend := ((Engine.execution_runs p pipeline e).unique hrun).2
  have houter : starts [] log = [1, 0] := (congrArg (fun s => starts [] s.log) hend).trans rfl
  have hinner : starts [0] log = [2, 0] := (congrArg (fun s => starts [0] s.log) hend).trans rfl
  have hp : p.document.pipeline? "main" = some pipeline := rfl
  obtain ⟨hchain, -⟩ := starts_lead (e := e) hp List.suffix_rfl []
  obtain ⟨hchainInside, hfirst⟩ := starts_lead (e := e) hp List.suffix_rfl [0]
  rw [houter] at hchain
  rw [hinner] at hchainInside hfirst
  exact ⟨⟨houter, (List.isChain_cons_cons.mp hchain).1⟩, hinner, hfirst 0 rfl (by decide),
    (List.isChain_cons_cons.mp hchainInside).1⟩

end Workflow
