import Mathlib.Data.List.Permutation
import Workflow.Proofs.Pipeline.Sound
import Workflow.Proofs.Run.Failure
import Workflow.Proofs.Run.Transitions

/-!
# Loaded documents run without a lost jump

A step asks its own block for the jump, and its block is one of the pipeline. So if the document is
sound, the block has the step that the jump names, and no run fails for want of it.
-/
namespace Workflow
open PipelineDocument
variable {σ π : Type}

theorem Engine.execution_finds {p : Program σ π} (hd : p.document.Sound) {pipeline : Pipeline}
    (hp : pipeline ∈ p.document.pipelines) (e : Engine σ π) {step target : String} :
    (execution p pipeline e).1 ≠ .error (.unknownTarget step target) := by
  intro h
  obtain ⟨c, s, t, hreach, hraises⟩ := execution_raised h
  cases hraises with
  | action ha => cases Program.perform_error ha
  | lost hs _ hstep ht =>
    obtain ⟨condition, haction⟩ := hstep.step_jump
    have hblock := hd.blocks pipeline hp _ hreach.belongs
    exact position?_eq_none.mp ht
      (hblock.target _ (List.mem_of_getElem? hs) target condition haction)

/-- A document that is loaded is sound, and no run of its pipelines fails because a jump names no
step. -/
theorem loaded_sound {rules : SchemaDocument} {text : String} {d : PipelineDocument}
    (h : loadWith rules text = .ok d) :
    d.Sound ∧ ∀ {σ π : Type} (p : Program σ π), p.document = d → ∀ e step target,
      (∀ name, (Engine.run p name e).1 ≠ .error (.unknownTarget step target)) ∧
        (Engine.runAll p e).1 ≠ .error (.unknownTarget step target) := by
  have hd := sound_of_loadWith h
  refine ⟨hd, fun p hp e step target => ?_⟩
  subst hp
  exact Engine.run_ne_error rfl (fun _ hp e => Engine.execution_finds hd hp e) e

/-- A jump to itself, with a step inside it. -/
theorem loaded_sound_jump :
    let rules : SchemaDocument :=
      ⟨.mkObj [("required", .arr [.str "pipelines"])], .required ["pipelines"], .empty⟩
    let text :=
      "\"pipelines\": [\x7b\"name\": \"p\", \"steps\": [\x7b\"name\": \"a\", " ++
        "\"type\": \"jump\", \"target\": \"a\", " ++
        "\"steps\": [\x7b\"name\": \"b\", \"type\": \"break\"\x7d]\x7d]\x7d]"
    let d : PipelineDocument :=
      ⟨[.bare "p" [.bare "a" none (.jump "a" none) [.bare "b" none .leaveLoop []]]]⟩
    loadWith rules text = .ok d ∧ d.Sound ∧ ∀ e,
      (Engine.run (Program.mk d ⟨none, none, none, 0⟩ .empty .default .system : Program Unit Unit)
        "p" e).1 ≠ .error (.unknownTarget "a" "a") := by
  intro rules text d
  have htokens : Yaml.tokens? text = some
      [.blockMappingStart, .key, .scalar false "pipelines", .value, .flowSequenceStart,
        .flowMappingStart, .key, .scalar false "name", .value, .scalar false "p", .flowEntry,
        .key, .scalar false "steps", .value, .flowSequenceStart,
        .flowMappingStart, .key, .scalar false "name", .value, .scalar false "a", .flowEntry,
        .key, .scalar false "type", .value, .scalar false "jump", .flowEntry,
        .key, .scalar false "target", .value, .scalar false "a", .flowEntry,
        .key, .scalar false "steps", .value, .flowSequenceStart,
        .flowMappingStart, .key, .scalar false "name", .value, .scalar false "b", .flowEntry,
        .key, .scalar false "type", .value, .scalar false "break", .flowMappingEnd,
        .flowSequenceEnd, .flowMappingEnd, .flowSequenceEnd, .flowMappingEnd, .flowSequenceEnd,
        .blockEnd] := by
    decide +kernel
  have hread : Yaml.read? text = some (.mkObj [("pipelines", .arr [.mkObj [("name", .str "p"),
      ("steps", .arr [.mkObj [("name", .str "a"), ("type", .str "jump"), ("target", .str "a"),
        ("steps", .arr [.mkObj [("name", .str "b"), ("type", .str "break")]])]])]])]) := by
    rw [Yaml.read?, htokens]
    cbv
  have hload : loadWith rules text = .ok d := by
    rw [loadWith, hread]
    rfl
  obtain ⟨hsound, hruns⟩ := loaded_sound hload
  exact ⟨hload, hsound, fun e => (hruns _ rfl e "a" "a").1 "p"⟩

end Workflow
