import Workflow.Proofs.Pipeline.Members
import Workflow.Proofs.Run.Sources
import Workflow.Proofs.Store.Confidential

/-!
# Defaults of steps that load

A step that loads from the store may declare a default for when nothing is stored. Every value that
is read as a step keeps its default, so that the default is taken when the step finds nothing; only
null is read as no default at all, and then the step fails.
-/
namespace Workflow
open Attempt

theorem Record.GivesAt.optional_given {α : Type} {s : FieldSource} (name : String)
    (d : Decoder α) :
    (Record.optional name d).GivesAt s fun found =>
      ∀ v, s.find name = some v → Decoder.nullable d v = .ok found := by
  intro found h v hv
  rw [Record.optional, withDefault, field] at h
  simp only [hv] at h
  exact h

/-- A default is the value of its member. -/
theorem Action.ofTable_default {step : String} {iterates : Bool} {t : Table Json} {action : Action}
    (h : ofTable step "load_context" iterates t = .ok action) {x : Json}
    (hx : t.get? "default" = some x) :
    ∃ path destination default, Decoder.nullable .any x = .ok default ∧
      action = .loadContext path destination default := by
  have hread : (Record.GivesAt · ⟨t.get?, .missing, false⟩
      fun action => ∃ path destination default, Decoder.nullable .any x = .ok default ∧
        action = .loadContext path destination default)
      (loadContext <$> .required "path" .text <*> .optional "destination" .text
        <*> .optional "default" .any) :=
    .seq_with (.seq (.map (.of_all fun path destination default hdefault =>
      ⟨path, destination, default, hdefault x hx, rfl⟩))) (.optional_given "default" .any)
  exact hread.of_ofTable (ok_of_mapError h)

namespace Step
variable {v : Json} {st : Step} {steps : List Step} {items : List Json}

theorem shallow_default {t : Table Json} (h : shallow (.obj t) = .ok st)
    (htype : t.get? "type" = some (.str "load_context")) {x : Json}
    (hx : t.get? "default" = some x) :
    ∃ path destination default, Decoder.nullable .any x = .ok default ∧
      st.action = .loadContext path destination default := by
  have htyped : Common.record.GivesAt ⟨t.get?, .missing, false⟩
      fun common => common.type = some "load_context" := by
    refine .seq (.seq (.seq (.seq_with (.map (.of_all ?_)) (.optional_given "type" .text))))
    intro _ type hfound _ _ _
    exact (Except.ok.inj (hfound _ htype)).symm
  obtain ⟨common, hcommon, h⟩ := ok_of_bind h
  obtain ⟨action, haction, h⟩ := ok_of_bind h
  rw [htyped.of_ofTable (ok_of_mapError hcommon)] at haction
  split at h
  · cases h
  · cases h
    refine Action.ofTable_default haction ?_
    rwa [Record.others_get? (by decide)]

/-- A step that is to load from the store has the default that its value has. -/
theorem ofJson_default (h : ofJson v = .ok st) (htype : v.get? "type" = some (.str "load_context"))
    {x : Json} (hx : v.get? "default" = some x) :
    ∃ path destination default, Decoder.nullable .any x = .ok default ∧
      st.action = .loadContext path destination default := by
  obtain ⟨t, outer, rfl, houter, haction, -⟩ := ofJson_shallow h
  rw [haction]
  exact shallow_default houter htype hx

theorem ofItems_all (h : ofItems items = .ok steps) :
    ∀ v ∈ items, ∃ st ∈ steps, ofJson v = .ok st := by
  induction items generalizing steps with
  | nil => nofun
  | cons v rest ih =>
    obtain ⟨first, hfirst, h⟩ := ok_of_bind h
    obtain ⟨later, hlater, h⟩ := ok_of_bind h
    cases h
    refine List.forall_mem_cons.mpr ⟨⟨first, List.mem_cons_self, hfirst⟩, fun w hw => ?_⟩
    obtain ⟨st, hst, hread⟩ := ih hlater w hw
    exact ⟨st, List.mem_cons_of_mem first hst, hread⟩

end Step

theorem Pipeline.ofItems_all {names : List String} {items : List Json} {pipelines : List Pipeline}
    (h : ofItems names items = .ok pipelines) :
    ∀ v ∈ items, ∃ p ∈ pipelines, ofJson v = .ok p := by
  induction items generalizing names pipelines with
  | nil => nofun
  | cons v rest ih =>
    obtain ⟨first, hfirst, h⟩ := ok_of_bind h
    split at h
    · cases h
    · obtain ⟨later, hlater, h⟩ := ok_of_bind h
      cases h
      refine List.forall_mem_cons.mpr ⟨⟨first, List.mem_cons_self, hfirst⟩, fun w hw => ?_⟩
      obtain ⟨p, hp, hread⟩ := ih hlater w hw
      exact ⟨p, List.mem_cons_of_mem first hp, hread⟩

theorem PipelineDocument.ofJson_all {v : Json} {d : PipelineDocument} (h : ofJson v = .ok d) :
    ∀ w ∈ v.listAt "pipelines", ∃ p ∈ d.pipelines, Pipeline.ofJson w = .ok p := by
  unfold ofJson at h
  split at h
  · rename_i items hitems
    obtain ⟨pipelines, hpipelines, h⟩ := ok_of_bind h
    cases h
    rw [Json.listAt, hitems]
    exact Pipeline.ofItems_all hpipelines
  · cases h

/-- A document has a value where a step stands: in a pipeline, or inside another step. -/
inductive Json.HoldsStep (v : Json) : Json → Prop
  | outer {p w} : p ∈ v.listAt "pipelines" → w ∈ p.stepValues → v.HoldsStep w
  | inner {u w} : v.HoldsStep u → w ∈ u.listAt "steps" → v.HoldsStep w

def PipelineDocument.HasStep (d : PipelineDocument) (st : Step) : Prop :=
  ∃ pipeline ∈ d.pipelines, ∃ block, Inside pipeline.steps block ∧ st ∈ block

/-- Every value where a step stands is read as a step of the document. -/
theorem PipelineDocument.ofJson_holds {v w : Json} {d : PipelineDocument} (h : ofJson v = .ok d)
    (hw : v.HoldsStep w) : ∃ st, d.HasStep st ∧ Step.ofJson w = .ok st := by
  induction hw with
  | outer hp hw =>
    obtain ⟨pipeline, hpipeline, hread⟩ := ofJson_all h _ hp
    obtain ⟨st, hst, hstep⟩ := Step.ofItems_all (Pipeline.ofJson_stepValues hread) _ hw
    exact ⟨st, ⟨pipeline, hpipeline, pipeline.steps, .here, hst⟩, hstep⟩
  | inner _ hw ih =>
    obtain ⟨outer, ⟨pipeline, hpipeline, block, hblock, houter⟩, hread⟩ := ih
    obtain ⟨st, hst, hstep⟩ := Step.ofItems_all (Step.ofJson_steps hread) _ hw
    exact ⟨st, ⟨pipeline, hpipeline, outer.steps, .step hblock houter, hst⟩, hstep⟩

theorem Store.read_absent {σ : Type} {env : Environment σ} {actor : Actor} {q : StorePath}
    {s : Store σ} (habsent : s.data.value? q.ns q.key = none)
    (hmay : actor.May s.permissions q.resource .read) :
    ∃ u, read env actor q.ns q.key s = (.ok none, u) := by
  obtain ⟨u, hread⟩ : ∃ u, read env actor q.ns q.key s = (.ok (s.data.value? q.ns q.key), u) :=
    ⟨_, read_of_may hmay⟩
  exact ⟨u, habsent ▸ hread⟩

namespace Program
variable {σ π : Type} {p : Program σ π} {step path : String} {destination : Option String}
  {s : RunState σ π} {q : StorePath} {u : Store σ}

/-- A step that finds nothing takes its default, or fails if it has none. -/
theorem perform_loadContext (hq : StorePath.parse? path = some q)
    (hread : Store.read p.environment p.actor q.ns q.key s.store = (.ok none, u))
    (default : Option Json) :
    p.perform step (.loadContext path destination default) s =
      let t := { s.note .stored with store := u }
      match default.map (Expression.resolve s.context) with
      | some (.ok y) => (.ok .proceed, t.bind (destination.getD q.key) y)
      | some (.error e) => (.error (.expression step e), t)
      | none => (.error (.store step (.notFound q)), t) := by
  rw [perform, bind_apply, storePath, hq]
  dsimp only [Attempt.look]
  rw [bind_apply, loadValue, bind_apply, onStore_apply, hread]
  cases default with
  | none => rfl
  | some x =>
    have hlook : resolve step x { s.note .stored with store := u } =
        ((Expression.resolve s.context x).mapError (.expression step),
          { s.note .stored with store := u }) := rfl
    dsimp only [Except.mapError]
    rw [bind_apply, hlook, Option.map_some]
    cases Expression.resolve s.context x <;> rfl

end Program

/-- Null is read as no default: a step that declares it fails if it finds nothing. -/
theorem null_default_lost {w : Json} {st : Step} (h : Step.ofJson w = .ok st)
    (htype : w.get? "type" = some (.str "load_context")) (hx : w.get? "default" = some .null) :
    ∃ path destination, st.action = .loadContext path destination none ∧
      ∀ {σ π : Type} (p : Program σ π) (s : RunState σ π) (q : StorePath),
        StorePath.parse? path = some q → s.store.data.value? q.ns q.key = none →
        p.actor.May s.store.permissions q.resource .read →
        (p.perform st.name st.action s).1 = .error (.store st.name (.notFound q)) := by
  obtain ⟨path, destination, default, hdefault, haction⟩ := Step.ofJson_default h htype hx
  obtain rfl : none = default := Except.ok.inj hdefault
  refine ⟨path, destination, haction, fun p s q hq habsent hmay => ?_⟩
  obtain ⟨u, hfound⟩ := Store.read_absent habsent hmay
  rw [haction, Program.perform_loadContext hq hfound]
  rfl

/-- A step that is to load from the store, and whose value in the document declares a default that
is not null, does not fail for want of a stored value: if the key of its path has none, and the
actor may read it, the step binds its destination to the default with its templates replaced, or
fails because they cannot be replaced. -/
theorem default_applies {v w x : Json} {d : PipelineDocument}
    (hd : PipelineDocument.ofJson v = .ok d) (hw : v.HoldsStep w)
    (htype : w.get? "type" = some (.str "load_context")) (hx : w.get? "default" = some x)
    (hnull : x ≠ .null) :
    ∃ st path destination, Step.ofJson w = .ok st ∧ d.HasStep st ∧
      st.action = .loadContext path destination (some x) ∧
      ∀ {σ π : Type} (p : Program σ π) (s : RunState σ π) (q : StorePath),
        StorePath.parse? path = some q → s.store.data.value? q.ns q.key = none →
        p.actor.May s.store.permissions q.resource .read →
        ∃ u, Store.read p.environment p.actor q.ns q.key s.store = (.ok none, u) ∧
          let t := { s.note .stored with store := u }
          (∃ y, Expression.resolve s.context x = .ok y ∧
            p.perform st.name st.action s = (.ok .proceed, t.bind (destination.getD q.key) y)) ∨
          ∃ e, Expression.resolve s.context x = .error e ∧
            p.perform st.name st.action s = (.error (.expression st.name e), t) := by
  obtain ⟨st, hst, hread⟩ := PipelineDocument.ofJson_holds hd hw
  obtain ⟨path, destination, default, hdefault, haction⟩ := Step.ofJson_default hread htype hx
  obtain rfl : some x = default :=
    Except.ok.inj ((Decoder.nullable_eq hnull rfl).symm.trans hdefault)
  refine ⟨st, path, destination, hread, hst, haction, fun p s q hq habsent hmay => ?_⟩
  obtain ⟨u, hfound⟩ := Store.read_absent habsent hmay
  refine ⟨u, hfound, ?_⟩
  rw [haction, Program.perform_loadContext hq hfound, Option.map_some]
  rcases Expression.resolve s.context x with e | y
  · exact .inr ⟨e, rfl, rfl⟩
  · exact .inl ⟨y, rfl, rfl⟩

/-- A number as a default, under the key of the path. -/
theorem default_applies_number :
    let w := Json.mkObj [("name", .str "load"), ("type", .str "load_context"),
      ("path", .str "jobs.seed"), ("default", .nat 7)]
    let main := Json.mkObj [("name", .str "main"), ("steps", .arr [w])]
    let v := Json.mkObj [("pipelines", .arr [main])]
    let st : Step := ⟨"load", none, none, .loadContext "jobs.seed" none (some (.nat 7)), []⟩
    let d : PipelineDocument := ⟨[⟨"main", none, [st], true, .sequential, none⟩]⟩
    let p := Program.bare .default (.bare "main" [])
    let s := (Engine.bare .empty).beginRun (.bare "main" [])
    (PipelineDocument.ofJson v = .ok d ∧ v.HoldsStep w ∧
      w.get? "type" = some (.str "load_context") ∧ w.get? "default" = some (.nat 7) ∧
      Json.nat 7 ≠ .null) ∧
    ∃ t, p.perform "load" st.action s = (.ok .proceed, t) ∧
      t.context.get? "seed" = some (.nat 7) := by
  intro w main v st d p s
  have hd : PipelineDocument.ofJson v = .ok d := by cbv
  have hpipelines : v.listAt "pipelines" = [main] := by cbv
  have hsteps : main.stepValues = [w] := by cbv
  have hw : v.HoldsStep w :=
    .outer (hpipelines ▸ List.mem_singleton_self main) (hsteps ▸ List.mem_singleton_self w)
  have hnull : Json.nat 7 ≠ .null := by rintro ⟨⟩
  refine ⟨⟨hd, hw, rfl, rfl, hnull⟩, ?_⟩
  obtain ⟨st', path, destination, hread, -, haction, hrun⟩ := default_applies hd hw rfl rfl hnull
  obtain rfl : st = st' := Except.ok.inj hread
  obtain ⟨rfl, rfl⟩ : path = "jobs.seed" ∧ destination = none := by
    cases haction
    exact ⟨rfl, rfl⟩
  obtain ⟨u, -, ⟨y, hy, hdone⟩ | ⟨e, he, -⟩⟩ :=
    hrun p s ⟨"jobs", "seed"⟩ (by decide) rfl (.inl rfl)
  · cases hy
    exact ⟨_, hdone, rfl⟩
  · cases he

end Workflow
