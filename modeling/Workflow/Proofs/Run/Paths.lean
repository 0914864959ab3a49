import Mathlib.Data.List.Permutation
import Workflow.Proofs.Pipeline.Members
import Workflow.Proofs.Pipeline.Rules
import Workflow.Proofs.Pipeline.Sound
import Workflow.Proofs.Run.Failure

/-!
# Loaded documents write paths

A path is checked twice: when a document is loaded, against the pattern of its schema, and when the
step that writes it is run, by taking it apart. What the first check lets pass, the second one does
not refuse. So no run of a document that has been loaded fails for want of a path.
-/
namespace Workflow
open PipelineDocument Attempt
variable {σ π : Type}

/-- Every path that a step of a document writes is one, at any depth. -/
def PipelineDocument.WritesPaths (d : PipelineDocument) : Prop :=
  ∀ pipeline ∈ d.pipelines, ∀ block, Inside pipeline.steps block → ∀ st ∈ block, ∀ text,
    st.action.path? = some text → ∃ path, StorePath.parse? text = some path

/-- What the schema admits writes paths. -/
theorem PipelineDocument.writesPaths_of_ofJson {v : Json} {d : PipelineDocument}
    (hrules : documentRules.violations v = []) (h : ofJson v = .ok d) : d.WritesPaths := by
  intro pipeline hp block hblock st hst text htext
  obtain ⟨w, hw, hread⟩ := ofJson_mem h pipeline hp
  have hadmitted := pipeline_of_violations hrules hw
  obtain ⟨fields, rfl⟩ := object_of_pipeline hadmitted
  obtain ⟨u, hu, hstep⟩ := hblock.read (fun _ hv _ => step_of_step hv)
    (Pipeline.ofJson_steps hread) (fun _ => step_of_pipeline hadmitted) st hst
  exact path_of_step hu (Step.ofJson_path hstep htext)

theorem PipelineDocument.writesPaths_of_load {text : String} {d : PipelineDocument}
    (h : load text = .ok d) : d.WritesPaths := by
  rw [load_eq] at h
  obtain ⟨v, -, hrules, hread, -⟩ := loadWith_eq_ok.mp h
  exact writesPaths_of_ofJson hrules hread

theorem Engine.execution_writesPaths {p : Program σ π} (hd : p.document.WritesPaths)
    {pipeline : Pipeline} (hp : pipeline ∈ p.document.pipelines) (e : Engine σ π)
    {step text : String} : (execution p pipeline e).1 ≠ .error (.badPath step text) := by
  intro h
  obtain ⟨c, s, t, hreach, hraises⟩ := execution_raised h
  cases hraises with
  | action ha =>
    obtain ⟨block, hblock, hst⟩ := hreach.belongs
    cases Program.perform_error ha with
    | badPath hpath hnone =>
      obtain ⟨path, hsome⟩ := hd pipeline hp block hblock _ hst text hpath
      rw [hnone] at hsome
      cases hsome

/-- Every path that a loaded document writes, at any depth, divides into a namespace and a key that
are not empty, and no run of its pipelines fails because a path does not. -/
theorem loaded_paths_divide {text : String} {d : PipelineDocument} (h : load text = .ok d) :
    (∀ pipeline ∈ d.pipelines, ∀ block, Inside pipeline.steps block → ∀ st ∈ block, ∀ path,
      st.action.path? = some path → ∃ q, StorePath.parse? path = some q ∧
        path = q.resource ∧ q.ns ≠ "" ∧ q.key ≠ "" ∧ '.' ∉ q.ns.toList) ∧
    ∀ {σ π : Type} (p : Program σ π), p.document = d → ∀ e step path,
      (∀ name, (Engine.run p name e).1 ≠ .error (.badPath step path)) ∧
        (Engine.runAll p e).1 ≠ .error (.badPath step path) := by
  have hd := writesPaths_of_load h
  refine ⟨fun pipeline hp block hblock st hst path hpath => ?_, fun p hp e step path => ?_⟩
  · obtain ⟨q, hq⟩ := hd pipeline hp block hblock st hst path hpath
    exact ⟨q, hq, StorePath.parse?_eq_some.mp hq⟩
  · subst hp
    exact Engine.run_ne_error rfl (fun _ hp e => Engine.execution_writesPaths hd hp e) e

/-- A path inside a step that guards it. -/
theorem loaded_paths_divide_inside :
    let text := "pipelines: [\x7bname: 'p', steps: [\x7bname: 'a', type: 'conditional', " ++
      "condition: 'x', steps: [\x7bname: 'b', type: 'load_context', path: 'n.k'\x7d]\x7d]\x7d]"
    let inner := Step.bare "b" none (.loadContext "n.k" none none) []
    let d : PipelineDocument := ⟨[.bare "p" [.bare "a" none (.conditional "x") [inner]]]⟩
    load text = .ok d ∧
      (∃ q, StorePath.parse? "n.k" = some q ∧
        "n.k" = q.resource ∧ q.ns ≠ "" ∧ q.key ≠ "" ∧ '.' ∉ q.ns.toList) ∧
      ∀ e, (Engine.run
        (Program.mk d ⟨none, none, none, 0⟩ .empty .default .system : Program Unit Unit) "p" e).1 ≠
          .error (.badPath "b" "n.k") := by
  intro text inner d
  have htokens : Yaml.tokens? text = some
      [.blockMappingStart, .key, .scalar true "pipelines", .value, .flowSequenceStart,
        .flowMappingStart, .key, .scalar true "name", .value, .scalar false "p", .flowEntry,
        .key, .scalar true "steps", .value, .flowSequenceStart,
        .flowMappingStart, .key, .scalar true "name", .value, .scalar false "a", .flowEntry,
        .key, .scalar true "type", .value, .scalar false "conditional", .flowEntry,
        .key, .scalar true "condition", .value, .scalar false "x", .flowEntry,
        .key, .scalar true "steps", .value, .flowSequenceStart,
        .flowMappingStart, .key, .scalar true "name", .value, .scalar false "b", .flowEntry,
        .key, .scalar true "type", .value, .scalar false "load_context", .flowEntry,
        .key, .scalar true "path", .value, .scalar false "n.k", .flowMappingEnd,
        .flowSequenceEnd, .flowMappingEnd, .flowSequenceEnd, .flowMappingEnd, .flowSequenceEnd,
        .blockEnd] := by
    decide +kernel
  let v : Json := .mkObj [("pipelines", .arr [.mkObj [("name", .str "p"),
    ("steps", .arr [.mkObj [("name", .str "a"), ("type", .str "conditional"),
      ("condition", .str "x"), ("steps", .arr [.mkObj [("name", .str "b"),
        ("type", .str "load_context"), ("path", .str "n.k")]])]])]])]
  have hread : Yaml.read? text = some v := by
    rw [Yaml.read?, htokens]
    cbv
  have hclean : (documentRules.violations v).isEmpty = true := by
    decide +kernel
  have hload : load text = .ok d := by
    rw [load_eq]
    exact loadWith_eq_ok.mpr ⟨v, hread, List.isEmpty_iff.mp hclean, rfl, rfl⟩
  obtain ⟨hpaths, hruns⟩ := loaded_paths_divide hload
  have hinner := hpaths _ List.mem_cons_self [inner] (.step .here List.mem_cons_self) inner
    List.mem_cons_self "n.k" rfl
  exact ⟨hload, hinner, fun e => (hruns _ rfl e "b" "n.k").1 "p"⟩

end Workflow
