import Workflow.Pipeline.Load
import Workflow.Proofs.Pipeline.Edges
import Workflow.Proofs.Pipeline.Reading

/-!
# Loaded documents

Loading looks at a document twice: the reader at every step, and the control graph at every block,
where it finds repeated names and jumps that lead nowhere. Both reach every depth, so that nothing
that is loaded has a flaw.
-/
namespace Workflow
open ControlGraph Attempt

/-- What is demanded of a block of steps. -/
structure SoundBlock (block : List Step) : Prop where
  distinct : (block.map Step.name).Nodup
  target : ∀ st ∈ block, ∀ target condition, st.action = .jump target condition →
    target ∈ block.map Step.name
  control : ∀ st ∈ block, st.action.isControl = true → st.iterate = none
  plugin : ∀ st ∈ block, ∀ call, st.action = .plugin call → call.plugin ≠ none ∨ st.iterate ≠ none

/-- What is demanded of a document: its pipelines have distinct names, and all their blocks are
sound, at any depth. -/
structure PipelineDocument.Sound (d : PipelineDocument) : Prop where
  distinct : (d.pipelines.map Pipeline.name).Nodup
  blocks : ∀ pipeline ∈ d.pipelines, ∀ block, Inside pipeline.steps block → SoundBlock block

namespace ControlGraph

/-- If no step of a block is found to repeat a name, all names are new. -/
theorem nodup_of_duplicates {scope : String} {seen : List String} {block : List Step}
    (h : duplicates scope seen block = []) :
    (block.map Step.name).Nodup ∧ ∀ st ∈ block, st.name ∉ seen := by
  induction block generalizing seen with
  | nil => exact ⟨List.nodup_nil, nofun⟩
  | cons first block ih =>
    rw [duplicates] at h
    split at h
    · cases h
    · rename_i hnew
      obtain ⟨hnodup, hseen⟩ := ih h
      refine ⟨List.nodup_cons.mpr ⟨fun hm => ?_, hnodup⟩, List.forall_mem_cons.mpr ⟨?_, ?_⟩⟩
      · obtain ⟨st, hst, heq⟩ := List.mem_map.mp hm
        exact hseen st hst (heq ▸ List.mem_cons_self)
      · simpa using hnew
      · exact fun st hst hm => hseen st hst (List.mem_cons_of_mem _ hm)

theorem target_of_jumpErrors {scope : String} {block : List Step} {st : Step}
    (h : jumpErrors scope block st = []) {target : String} {condition : Option String}
    (hj : st.action = .jump target condition) : target ∈ block.map Step.name := by
  rw [jumpErrors, hj] at h
  dsimp only [jumpTarget?] at h
  split at h
  · cases h
  · rename_i hne
    rw [List.isEmpty_iff, fromName_eq_nil, position?_eq_none, not_not] at hne
    exact hne

end ControlGraph

/-- Legal steps make a sound block if no flaw is found in it. -/
theorem SoundBlock.of_flaws {scope : String} {block : List Step}
    (h : blockFlaws scope block = []) (hl : ∀ st ∈ block, st.Legal) : SoundBlock block where
  distinct := (nodup_of_duplicates (List.append_eq_nil_iff.mp h).1).1
  target st hst target condition haction := by
    have herrors := jumpErrors_subset scope block hst
    rw [(List.append_eq_nil_iff.mp h).2] at herrors
    exact target_of_jumpErrors (List.subset_nil.mp herrors) haction
  control st hst hc := by simpa using (hl st hst).action.control hc
  plugin st hst call haction := by
    simpa [← Option.isSome_iff_ne_none] using (hl st hst).action.plugin call haction

/-- What can be read and has no flaws is sound. -/
theorem PipelineDocument.sound_of_ofJson {v : Json} {d : PipelineDocument} (h : ofJson v = .ok d)
    (he : (ofDocument d).errors = []) : d.Sound := by
  obtain ⟨hdistinct, hlegal⟩ := ofJson_legal h
  refine ⟨hdistinct, fun pipeline hp block hblock => ?_⟩
  obtain ⟨scope, hlocated⟩ := Located.of_inside pipeline.name hblock
  have hflaws : blockFlaws pipeline.name pipeline.steps = [] :=
    List.flatMap_eq_nil_iff.mp he pipeline hp
  have hinner := hlocated.flaws
  rw [hflaws] at hinner
  exact .of_flaws (List.subset_nil.mp hinner) (hblock.legal (hlegal pipeline hp))

/-- A text is loaded just if it passes all stages: it writes a value that the schema accepts and the
document is read from, and the document has no flaws. -/
theorem PipelineDocument.loadWith_eq_ok {rules : SchemaDocument} {text : String}
    {d : PipelineDocument} : loadWith rules text = .ok d ↔
      ∃ v, Yaml.read? text = some v ∧ rules.violations v = [] ∧ ofJson v = .ok d ∧
        (ofDocument d).errors = [] := by
  unfold loadWith
  constructor
  · intro h
    split at h
    · cases h
    · rename_i v hv
      dsimp only at h
      split at h
      · cases h
      · rename_i hrules
        obtain ⟨document, hread, h⟩ := ok_of_bind h
        split at h
        · cases h
        · rename_i he
          cases h
          exact ⟨v, hv, by simpa using hrules, ok_of_mapError hread, by simpa using he⟩
  · rintro ⟨v, hv, hrules, hread, he⟩
    rw [hv]
    dsimp only
    rw [hrules, hread]
    change (if !(ofDocument d).errors.isEmpty then _ else Except.ok d) = _
    rw [he]
    rfl

/-- Every document that is loaded is sound. -/
theorem PipelineDocument.sound_of_loadWith {rules : SchemaDocument} {text : String}
    {d : PipelineDocument} (h : loadWith rules text = .ok d) : d.Sound := by
  obtain ⟨v, -, -, hread, he⟩ := loadWith_eq_ok.mp h
  exact sound_of_ofJson hread he

end Workflow
