import Workflow.Proofs.Pipeline.Acyclic
import Workflow.Proofs.Run.Failure

/-!
# Pipelines that are not refused

Where cycles are not allowed, a pipeline is refused if the search finds a cycle inside its name. A
pipeline that only jumps forward has none as long as its steps have nodes of their own, and nothing
but the refusal reports a cycle. Steps that share a node can get it refused all the same.
-/
namespace Workflow
open ControlGraph
variable {σ π : Type}

namespace Engine

theorem execution_accepts (p : Program σ π) (pipeline : Pipeline) (e : Engine σ π)
    (name : String) (cycle : List String) :
    (execution p pipeline e).1 ≠ .error (.cycleRejected name cycle) := by
  intro h
  obtain ⟨c, s, t, -, hraises⟩ := execution_raised h
  cases hraises with
  | action ha => cases Program.perform_error ha

/-- In a sound document of plain names, a pipeline that only jumps forward is not refused. -/
theorem refusal_of_plain {p : Program σ π} (hd : p.document.Sound) {pipeline : Pipeline}
    (hp : pipeline ∈ p.document.pipelines)
    (hnames : ∀ other ∈ p.document.pipelines, Plain other.name)
    (hplain : ∀ block, Inside pipeline.steps block → ∀ st ∈ block, Plain st.name)
    (hf : Forward pipeline.steps) : refusal p pipeline = none := by
  rw [refusal, (Distinguished.of_plain hd hp hnames hplain).cyclesIn_eq_nil hf]
  split <;> rfl

end Engine

/-- A pipeline that only jumps forward is not refused for a cycle, if its steps have nodes of their
own. -/
theorem acyclic_accepted {p : Program σ π} {pipeline : Pipeline} (hf : Forward pipeline.steps)
    (hd : Distinguished p.document pipeline) (e : Engine σ π) (name : String)
    (cycle : List String) :
    (Engine.run p pipeline.name e).1 ≠ .error (.cycleRejected name cycle) := by
  intro h
  rcases Engine.run_error h with h | ⟨found, hfound, h | h⟩
  · cases h
  · obtain ⟨c, hc, -⟩ := Engine.refusal_eq_some h
    have hname : found.name = pipeline.name := by simpa using List.find?_some hfound
    rw [hname, hd.cyclesIn_eq_nil hf] at hc
    cases hc
  · exact Engine.execution_accepts p found e name cycle h

/-- A jump over nothing, beside a pipeline that jumps in a circle. -/
theorem acyclic_accepted_beside :
    let guarded := Step.bare "c" none (.conditional "true") []
    let pipeline := Pipeline.bare "p" [.bare "a::b" none (.jump "d" none) [guarded],
      .bare "d" none (.conditional "true") []]
    let circle := Pipeline.bare "q" [.bare "a" none (.jump "a" none) []]
    let p : Program Unit Unit :=
      ⟨⟨[pipeline, circle]⟩, ⟨none, none, none, 0⟩, .empty, ⟨9, "system", true⟩, .system⟩
    (ofDocument p.document).cyclesIn "q" ≠ [] ∧ ∀ e cycle,
      (Engine.run p "p" e).1 ≠ .error (.cycleRejected "p" cycle) := by
  intro guarded pipeline circle p
  have hguarded : Forward [guarded] :=
    .of_idle (by simp [guarded, Step.bare]) (by simp [guarded, Step.bare])
  have hf : Forward pipeline.steps := by
    refine .of_steps (fun i st target condition j hi haction hj => ?_) fun st hst => ?_
    · rcases i with _ | _ | i <;> cases hi <;> cases haction
      obtain rfl : 1 = j := Option.some.inj hj
      decide
    · rcases List.mem_pair.mp hst with rfl | rfl
      · exact hguarded
      · exact .nil
  have hd : Distinguished p.document pipeline := by
    refine ⟨by decide, fun other hother hne node hnode => ?_⟩
    rcases List.mem_pair.mp hother with rfl | rfl
    · exact absurd rfl hne
    · cases List.mem_singleton.mp hnode
      decide
  exact ⟨by decide, fun e => acyclic_accepted hf hd e "p"⟩

/-- Two steps of one node close a cycle without any jump: the step `x::y`, and the step `y` inside
the step `x` after it. -/
theorem acyclic_refused (e : Engine Unit Unit) :
    let outer := Step.bare "x" none (.conditional "true") [.bare "y" none (.conditional "true") []]
    let pipeline := Pipeline.bare "p" [.bare "x::y" none (.conditional "true") [], outer]
    let p : Program Unit Unit :=
      ⟨⟨[pipeline]⟩, ⟨none, none, none, 0⟩, .empty, ⟨9, "system", true⟩, .system⟩
    (ofDocument p.document).errors = [] ∧
      (Engine.run p "p" e).1 = .error (.cycleRejected "p" ["p::x::y", "p::x", "p::x::y"]) :=
  ⟨rfl, rfl⟩

end Workflow
