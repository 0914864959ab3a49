import Workflow.Proofs.Json.Record
import Workflow.Proofs.Pipeline.Reading
import Workflow.Proofs.Schema.Admits

/-!
# Where a document is read from

A step is read from an object: its path, if it has one, from the member of that name, and the steps
inside it from the list of their member. So the steps of a block, at any depth, are read from values
that are found in the same way inside the values that the outermost steps are read from.
-/
namespace Workflow
open Attempt

def Action.PathIn (t : Table Json) (action : Action) : Prop :=
  ∀ path, action.path? = some path → t.get? "path" = some (.str path)

theorem Action.PathIn.of_get? {t : Table Json} {action : Action} {path : String}
    (ha : action.path? = some path) (h : t.get? "path" = some (.str path)) : action.PathIn t := by
  intro other hother
  rw [ha] at hother
  cases hother
  exact h

theorem Action.ofTable_pathIn {step type : String} {iterates : Bool} {t : Table Json}
    {action : Action} (h : ofTable step type iterates t = .ok action) : action.PathIn t := by
  have read {r : Record Action} (h : (r.ofTable t).mapError (ReadError.badStep step) = .ok action)
      (hr : r.GivesAt ⟨t.get?, .missing, false⟩ (PathIn t)) : action.PathIn t :=
    hr.of_ofTable (ok_of_mapError h)
  have found : (Record.required "path" Decoder.text).GivesAt ⟨t.get?, .missing, false⟩
      fun path => t.get? "path" = some (.str path) := .required_text "path"
  unfold ofTable at h
  split at h
  case h_1 =>
    obtain ⟨call, -, h⟩ := ok_of_bind h
    split at h <;> cases h
    nofun
  case h_2 => exact read h (.map (.of_all fun _ => nofun))
  case h_3 => exact read h (.seq (.map (.of_all fun _ _ => nofun)))
  case h_4 | h_6 => exact read h (.seq (.map (found.imp fun _ hpath _ => .of_get? rfl hpath)))
  case h_5 =>
    exact read h (.seq (.seq (.map (found.imp fun _ hpath _ _ => .of_get? rfl hpath))))
  case h_7 => exact read h (.seq_with (.map (.of_all fun _ _ hpath => .of_get? rfl hpath)) found)
  case h_8 =>
    obtain ⟨_, -, h⟩ := ok_of_bind h
    cases h
    nofun
  case h_9 | h_10 =>
    cases h
    nofun
  case h_11 => cases h

namespace Step
variable {v : Json} {st : Step} {steps : List Step} {items : List Json}

theorem shallow_object (h : shallow v = .ok st) : ∃ t, v = .obj t := by
  obtain ⟨common, hcommon, -⟩ := ok_of_bind h
  cases v with
  | obj t => exact ⟨t, rfl⟩
  | _ => cases hcommon

theorem shallow_pathIn {t : Table Json} (h : shallow (.obj t) = .ok st) : st.action.PathIn t := by
  obtain ⟨common, -, h⟩ := ok_of_bind h
  obtain ⟨action, haction, h⟩ := ok_of_bind h
  split at h
  · cases h
  · cases h
    intro path hpath
    have hother := Action.ofTable_pathIn haction path hpath
    rwa [Record.others_get? (by decide)] at hother

/-- The member of the steps inside is missing or a list. -/
theorem shallow_steps {t : Table Json} (h : shallow (.obj t) = .ok st) :
    t.get? "steps" = none ∨ ∃ items, t.get? "steps" = some (.arr items) := by
  have hlist : Common.record.GivesAt ⟨t.get?, .missing, false⟩
      fun _ => t.get? "steps" = none ∨ ∃ items, t.get? "steps" = some (.arr items) := by
    refine .seq_with (.of_all fun _ _ hitems => hitems)
      ((Record.GivesAt.default_list "steps").imp ?_)
    rintro items (⟨hnone, -⟩ | hitems)
    · exact .inl hnone
    · exact .inr ⟨items, hitems⟩
  obtain ⟨common, hcommon, -⟩ := ok_of_bind h
  exact hlist.of_ofTable (ok_of_mapError hcommon)

theorem ofJson_shallow (h : ofJson v = .ok st) :
    ∃ t outer, v = .obj t ∧ shallow v = .ok outer ∧ st.action = outer.action ∧
      ofMembers t.entries = .ok st.steps := by
  cases v with
  | obj t =>
    obtain ⟨outer, houter, h⟩ := ok_of_bind h
    obtain ⟨steps, hsteps, h⟩ := ok_of_bind h
    cases h
    exact ⟨t, outer, rfl, houter, rfl, hsteps⟩
  | _ =>
    obtain ⟨t, ht⟩ := shallow_object h
    cases ht

/-- The path of a step is the text of a member. -/
theorem ofJson_path (h : ofJson v = .ok st) {path : String} (hp : st.action.path? = some path) :
    v.get? "path" = some (.str path) := by
  obtain ⟨t, outer, rfl, houter, haction, -⟩ := ofJson_shallow h
  exact shallow_pathIn houter path (haction ▸ hp)

/-- The steps inside a step are read from the list that is a member. -/
theorem ofJson_steps (h : ofJson v = .ok st) : ofItems (v.listAt "steps") = .ok st.steps := by
  obtain ⟨t, outer, rfl, houter, -, hsteps⟩ := ofJson_shallow h
  rcases shallow_steps houter with hnone | ⟨items, hitems⟩
  · have hlist : (Json.obj t).listAt "steps" = [] := Json.listAt_of_none hnone
    rw [hlist, ofItems, ← hsteps, ofMembers_nil hnone]
  · have hlist : (Json.obj t).listAt "steps" = items := Json.listAt_of_get? hitems
    rw [hlist, ← hsteps, ofMembers_eq hitems]

theorem ofItems_mem (h : ofItems items = .ok steps) :
    ∀ st ∈ steps, ∃ v ∈ items, ofJson v = .ok st := by
  induction items generalizing steps with
  | nil =>
    cases h
    exact fun st hst => absurd hst List.not_mem_nil
  | cons v rest ih =>
    obtain ⟨first, hfirst, h⟩ := ok_of_bind h
    obtain ⟨later, hlater, h⟩ := ok_of_bind h
    cases h
    refine List.forall_mem_cons.mpr ⟨⟨v, List.mem_cons_self, hfirst⟩, fun st hst => ?_⟩
    obtain ⟨w, hw, hread⟩ := ih hlater st hst
    exact ⟨w, List.mem_cons_of_mem v hw, hread⟩

end Step

/-- What passes on from the value of a step to those of the steps inside it holds of the values that
the steps of all blocks are read from. -/
theorem Inside.read {P : Json → Prop} (hP : ∀ v, P v → ∀ w ∈ v.listAt "steps", P w)
    {steps block : List Step} (h : Inside steps block) {items : List Json}
    (hread : Step.ofItems items = .ok steps) (hitems : ∀ v ∈ items, P v) :
    ∀ st ∈ block, ∃ v, P v ∧ Step.ofJson v = .ok st := by
  suffices hblock : ∃ found, Step.ofItems found = .ok block ∧ ∀ v ∈ found, P v by
    obtain ⟨found, hread, hfound⟩ := hblock
    intro st hst
    obtain ⟨v, hv, hstep⟩ := Step.ofItems_mem hread st hst
    exact ⟨v, hfound v hv, hstep⟩
  induction h with
  | here => exact ⟨items, hread, hitems⟩
  | step _ hst ih =>
    obtain ⟨found, hread, hfound⟩ := ih
    obtain ⟨v, hv, hstep⟩ := Step.ofItems_mem hread _ hst
    exact ⟨v.listAt "steps", Step.ofJson_steps hstep, hP v (hfound v hv)⟩

/-- The values that the steps of a pipeline are read from. A pipeline may also be written as the
list of its fields. -/
def Json.stepValues : Json → List Json
  | .arr fields => ((Record.positioned Pipeline.record.names fields "steps").bind arr?).getD []
  | v => v.listAt "steps"

theorem Pipeline.record_steps (s : FieldSource) :
    record.GivesAt s fun outer => ((s.find "steps").bind Json.arr?).getD [] = outer.2 := by
  refine .seq (.seq (.seq (.seq_with (.seq (.map (.of_all ?_)))
    (Record.GivesAt.default_list "steps"))))
  rintro _ _ items (⟨hnone, rfl⟩ | hitems) _ _ _
  · rw [hnone]
    rfl
  · rw [hitems]
    rfl

/-- The steps of a pipeline are read from the values of its steps. -/
theorem Pipeline.ofJson_stepValues {v : Json} {pipeline : Pipeline} (h : ofJson v = .ok pipeline) :
    Step.ofItems v.stepValues = .ok pipeline.steps := by
  obtain ⟨⟨outer, items⟩, houter, h⟩ := ok_of_bind h
  obtain ⟨steps, hsteps, h⟩ := ok_of_bind h
  cases h
  suffices hvalues : v.stepValues = items by
    rw [hvalues]
    exact hsteps
  have hread := ok_of_mapError houter
  cases v with
  | obj t => exact (record_steps _).of_ofTable hread
  | arr fields =>
    obtain ⟨built, hbuilt, hread⟩ := ok_of_bind hread
    split at hread
    · cases hread
    · cases hread
      exact record_steps _ _ hbuilt
  | _ => cases hread

theorem Pipeline.ofJson_steps {t : Table Json} {pipeline : Pipeline}
    (h : ofJson (.obj t) = .ok pipeline) :
    Step.ofItems ((Json.obj t).listAt "steps") = .ok pipeline.steps :=
  ofJson_stepValues h

theorem Pipeline.ofItems_mem {names : List String} {items : List Json} {pipelines : List Pipeline}
    (h : ofItems names items = .ok pipelines) :
    ∀ p ∈ pipelines, ∃ v ∈ items, ofJson v = .ok p := by
  induction items generalizing names pipelines with
  | nil =>
    cases h
    nofun
  | cons v rest ih =>
    obtain ⟨first, hfirst, h⟩ := ok_of_bind h
    split at h
    · cases h
    · obtain ⟨later, hlater, h⟩ := ok_of_bind h
      cases h
      refine List.forall_mem_cons.mpr ⟨⟨v, List.mem_cons_self, hfirst⟩, fun p hp => ?_⟩
      obtain ⟨w, hw, hread⟩ := ih hlater p hp
      exact ⟨w, List.mem_cons_of_mem v hw, hread⟩

theorem PipelineDocument.ofJson_mem {v : Json} {d : PipelineDocument} (h : ofJson v = .ok d) :
    ∀ p ∈ d.pipelines, ∃ w ∈ v.listAt "pipelines", Pipeline.ofJson w = .ok p := by
  unfold ofJson at h
  split at h
  · rename_i items hitems
    obtain ⟨pipelines, hpipelines, h⟩ := ok_of_bind h
    cases h
    rw [Json.listAt, hitems]
    exact Pipeline.ofItems_mem hpipelines
  · cases h

end Workflow
