import Workflow.Proofs.Attempt
import Workflow.Proofs.Pipeline.Reading
import Workflow.Proofs.Run.Context
import Workflow.Run.Action

/-!
# The effect of an action

An action calls a plugin or works with the store, or it asks to leave an iteration. In the first
case it leaves the loops, the requests, the tree and the jumps of the run alone, and what it writes
to the live context shows there; in the second it does nothing else. Only a jump gives a target, and
no action fails for want of one.
-/
namespace Workflow

/-- Whether an event is work: a call of a plugin or an operation of the store. -/
def Event.isWork : Event → Bool
  | .called _ => true
  | .stored => true
  | _ => false

/-- Whether an error is that of a jump which its block could not follow. -/
def RunError.isJump : RunError → Bool
  | .unknownTarget .. => true
  | .jumpLimit .. => true
  | _ => false

def RunError.step? : RunError → Option String
  | .plugin step _ _ | .expression step _ | .badSnapshot step _ | .notIterable step _
  | .unknownTarget step _ | .jumpLimit step _ | .outsideLoop step _ | .store step _
  | .badPath step _ => some step
  | .pipelineNotFound _ | .cycleRejected _ _ | .pluginNotFound _ => none

/-- The errors that the action of a step fails with, where it writes a path or none. -/
inductive RunError.OfAction (step : String) (path : Option String) : RunError → Prop
  | pluginNotFound {reference} : OfAction step path (.pluginNotFound reference)
  | plugin {reference cause} : OfAction step path (.plugin step reference cause)
  | expression {cause} : OfAction step path (.expression step cause)
  | badSnapshot {id} : OfAction step path (.badSnapshot step id)
  | outsideLoop {type} : OfAction step path (.outsideLoop step type)
  | store {cause} : OfAction step path (.store step cause)
  | badPath {text} : path = some text → StorePath.parse? text = none →
      OfAction step path (.badPath step text)

namespace RunError.OfAction
variable {step : String} {path : Option String} {e : RunError}

theorem isJump (h : e.OfAction step path) : e.isJump = false := by cases h <;> rfl

theorem step?_eq (h : e.OfAction step path) {name : String} (hn : e.step? = some name) :
    name = step := by
  cases h <;> cases hn <;> rfl

end RunError.OfAction

/-- Whether an action asks to leave an iteration, and how. -/
def Action.control? : Action → Option LoopControl
  | .leaveLoop => some .leaveLoop
  | .nextItem => some .nextItem
  | _ => none

variable {σ π α β : Type}

/-- The second state comes from the first by work alone. -/
structure RunState.Works (s t : RunState σ π) : Prop where
  frames : t.frames = s.frames
  request : t.request = s.request
  progress : t.progress = s.progress
  jumps : t.jumps = s.jumps
  log : ∃ new, t.log = new ++ s.log ∧ ∀ e ∈ new, e.isWork = true
  context : Tracks (fun _ => True) s t

namespace RunState

instance : Std.Refl (Works (σ := σ) (π := π)) where
  refl s := ⟨rfl, rfl, rfl, rfl, ⟨[], rfl, by simp⟩, refl_of (Tracks _) s⟩

instance : IsTrans (RunState σ π) Works where
  trans _ _ _ h k := by
    obtain ⟨new, hl, hn⟩ := h.log
    obtain ⟨newer, kl, kn⟩ := k.log
    refine ⟨k.frames.trans h.frames, k.request.trans h.request, k.progress.trans h.progress,
      k.jumps.trans h.jumps, ⟨newer ++ new, by rw [kl, hl, List.append_assoc], fun e he => ?_⟩,
      trans_of (Tracks _) h.context k.context⟩
    rcases List.mem_append.mp he with he | he
    · exact kn e he
    · exact hn e he

theorem Works.note {s : RunState σ π} {e : Event} (h : e.isWork = true) : s.Works (s.note e) :=
  ⟨rfl, rfl, rfl, rfl, ⟨[e], rfl, by simpa using h⟩, .of_eq rfl rfl⟩

theorem Works.bind (s : RunState σ π) (key : String) (v : Json) : s.Works (s.bind key v) :=
  ⟨rfl, rfl, rfl, rfl, ⟨[], rfl, by simp⟩, .bind s key v⟩

theorem Works.bindAll (s : RunState σ π) (values : Table Json) : s.Works (s.bindAll values) :=
  ⟨rfl, rfl, rfl, rfl, ⟨[], rfl, by simp⟩, .bindAll s values⟩

end RunState

namespace Program
open Attempt RunState

/-- The attempt does nothing but work, and fails like the action of a step if it fails. -/
abbrev Working (step : String) (path : Option String) (Q : α → Prop) (a : RunAction σ π α) : Prop :=
  Meets Works Q (RunError.OfAction step path) a

section Parts
variable {step : String} {path : Option String}

theorem evaluate_working (expression : String) :
    Working step path (fun _ => True) (evaluate step expression : RunAction σ π Json) := by
  refine Meets.look (fun _ _ _ => trivial) fun s e he => ?_
  obtain ⟨cause, rfl⟩ := exists_of_mapError he
  exact .expression

theorem holds_working (expression : String) :
    Working step path (fun _ => True) (holds step expression : RunAction σ π Bool) :=
  (evaluate_working expression).bind fun _ _ => .pure trivial

theorem resolve_working (v : Json) :
    Working step path (fun _ => True) (resolve step v : RunAction σ π Json) := by
  refine Meets.look (fun _ _ _ => trivial) fun s e he => ?_
  obtain ⟨cause, rfl⟩ := exists_of_mapError he
  exact .expression

theorem resolveTable_working (t : Table Json) :
    Working step path (fun _ => True) (resolveTable step t : RunAction σ π (Table Json)) :=
  (resolve_working _).bind fun _ _ => .pure trivial

theorem storePath_working (text : String) :
    Working step (some text) (fun _ => True) (storePath step text : RunAction σ π StorePath) := by
  refine Meets.look (fun _ _ _ => trivial) fun s e he => ?_
  cases h : StorePath.parse? text <;> rw [h] at he <;> cases he
  exact .badPath rfl h

theorem onStore_working (a : StoreAction σ α) :
    Working step path (fun _ => True) (onStore step a : RunAction σ π α) := by
  refine Meets.bind (Q := fun _ => True) (.modify (fun s => .note rfl) trivial) fun _ _ => ?_
  refine ⟨fun s => ⟨rfl, rfl, rfl, rfl, ⟨[], rfl, by simp⟩, .of_eq rfl rfl⟩, fun _ _ _ => trivial,
    fun s e he => ?_⟩
  obtain ⟨cause, rfl⟩ := exists_of_mapError (f := RunError.store step) (r := (a s.store).1) he
  exact .store

theorem bind_working (key : String) (v : Json) :
    Working step path (fun _ => True) (modify (·.bind key v) : RunAction σ π PUnit) :=
  .modify (fun s => .bind s key v) trivial

theorem runPlugin_working (reference : String) (plugin : Plugin π) (config : Table Json) :
    Working step path (fun _ => True)
      (runPlugin step reference plugin config : RunAction σ π _) := by
  refine ⟨fun s => ⟨rfl, rfl, rfl, rfl, ⟨[.called reference], rfl, by simp [Event.isWork]⟩,
    .of_eq rfl rfl⟩, fun _ _ _ => trivial, fun s e he => ?_⟩
  obtain ⟨cause, rfl⟩ := exists_of_mapError (f := RunError.plugin step reference)
    (r := (plugin.run config s.context s.memory).1) he
  exact .plugin

theorem callPlugin_working (p : Program σ π) (reference : String) (call : PluginCall) :
    Working step path (fun _ => True) (callPlugin p step reference call) := by
  unfold callPlugin
  cases p.plugins.resolve? (PluginCall.splitReference reference) with
  | none => exact .throw .pluginNotFound
  | some plugin =>
    refine (resolveTable_working call.config).bind fun config _ => ?_
    refine (runPlugin_working reference plugin _).bind fun output _ => ?_
    cases call.outputKey with
    | some key => exact bind_working key _
    | none => exact .modify (fun s => .bindAll s output) trivial

theorem setValue_working (p : Program σ π) (place : StorePath) (v : Json) :
    Working step path (fun _ => True) (setValue p step place v) :=
  (onStore_working _).bind fun _ _ => .pure trivial

theorem loadValue_working (p : Program σ π) (place : StorePath) (destination : Option String)
    (default : Option Json) :
    Working step path (fun _ => True) (loadValue p step place destination default) := by
  refine (onStore_working _).bind fun found _ => ?_
  have binds (a : RunAction σ π Json) (ha : Working step path (fun _ => True) a) :
      Working step path (fun _ => True)
        (a >>= fun v => modify (·.bind (destination.getD place.key) v)) :=
    ha.bind fun v _ => bind_working _ v
  cases found with
  | some v => exact binds _ (.pure trivial)
  | none =>
    cases default with
    | some d => exact binds _ (resolve_working d)
    | none => exact binds _ (.throw .store)

theorem snapshotId_working (v : Json) :
    Working step path (fun _ => True) (snapshotId step v : RunAction σ π Nat) := by
  unfold snapshotId
  split
  · split
    · exact .pure trivial
    · exact .throw .badSnapshot
  · exact .throw .badSnapshot

theorem operate_working (p : Program σ π) (op : StoreOperation) :
    Working step path (fun _ => True) (operate p step op) := by
  have stored {α : Type} (a : StoreAction σ α) (f : α → Json) :
      Working step path (fun _ => True) (do return f (← onStore step a) : RunAction σ π Json) :=
    (onStore_working a).bind fun _ _ => .pure trivial
  cases op with
  | merge ns values strategy => exact (resolveTable_working values).bind fun _ _ => stored _ _
  | restore id =>
    exact (resolve_working id).bind fun v _ =>
      (snapshotId_working v).bind fun _ _ => stored _ _
  | _ => exact stored _ _

end Parts

/-- Whatever an action gives as a target, it is a jump to it. -/
def Follows (action : Action) (o : Outcome) : Prop :=
  ∀ target, o.jump = some target → ∃ condition, action = .jump target condition

theorem perform_working (p : Program σ π) (step : String) {action : Action}
    (h : action.control? = none) :
    Working step action.path? (Follows action) (perform p step action) := by
  have proceeds : Follows action .proceed := fun _ ht => by cases ht
  have done {path : Option String} :
      Working step path (Follows action) (pure .proceed : RunAction σ π Outcome) := .pure proceeds
  cases action with
  | plugin call =>
    dsimp only [perform]
    cases call.plugin with
    | some reference => exact (callPlugin_working p reference call).bind fun _ _ => done
    | none => exact done
  | conditional condition =>
    exact (holds_working condition).bind fun _ _ => .pure fun _ ht => by cases ht
  | jump target condition =>
    have leads (b : Bool) : Follows (.jump target condition)
        ⟨if b then some target else none, true⟩ := by
      intro t ht
      cases b <;> cases ht
      exact ⟨condition, rfl⟩
    cases condition with
    | none => exact .pure (leads true)
    | some condition => exact (holds_working condition).bind fun b _ => .pure (leads b)
  | setContext path v =>
    exact (storePath_working path).bind fun _ _ => (resolve_working v).bind fun _ _ =>
      (setValue_working p _ _).bind fun _ _ => done
  | loadContext path destination default =>
    exact (storePath_working path).bind fun _ _ =>
      (loadValue_working p _ destination default).bind fun _ _ => done
  | appendContext path v =>
    exact (storePath_working path).bind fun _ _ => (resolve_working v).bind fun _ _ =>
      (onStore_working _).bind fun _ _ => done
  | saveContext source path =>
    exact (storePath_working path).bind fun _ _ =>
      (evaluate_working _).bind fun _ _ => (setValue_working p _ _).bind fun _ _ => done
  | operate op outputKey =>
    refine (operate_working p op).bind fun result _ => ?_
    dsimp only
    cases outputKey with
    | some key => exact (bind_working key result).bind fun _ _ => done
    | none => exact done
  | leaveLoop => cases h
  | nextItem => cases h

/-- A request is refused outside of loops; else it is all that its action does. -/
theorem perform_control (p : Program σ π) (step : String) {action : Action}
    {control : LoopControl} (h : action.control? = some control) (s : RunState σ π) :
    perform p step action s =
      if s.frames.isEmpty then (.error (.outsideLoop step action.typeName), s)
      else (.ok ⟨none, false⟩, s.ask control) := by
  have request : requestControl step action.typeName control s =
      if s.frames.isEmpty then (.error (.outsideLoop step action.typeName), s)
      else (.ok ⟨⟩, s.ask control) := by
    rw [requestControl, get_bind]
    split <;> rfl
  have passes : perform p step action s =
      (requestControl step action.typeName control >>= fun _ => pure ⟨none, false⟩) s := by
    cases action <;> cases h <;> rfl
  rw [passes, bind_apply, request]
  cases s.frames.isEmpty <;> rfl

/-- All that an action can do to a run. -/
theorem perform_cases {p : Program σ π} {step : String} {action : Action} {s t : RunState σ π}
    {r : Except RunError Outcome} (h : perform p step action s = (r, t)) :
    (s.Works t ∧ (∀ o, r = .ok o → Follows action o) ∧ ∀ e, r = .error e → e.isJump = false) ∨
      ∃ control, s.frames ≠ [] ∧ r = .ok ⟨none, false⟩ ∧ t = s.ask control := by
  cases hc : action.control? with
  | none =>
    have hw := perform_working p step hc
    have hs := hw.changes s
    have hg := hw.gives s
    have hf := hw.fails s
    rw [h] at hs hg hf
    exact .inl ⟨hs, hg, fun e he => (hf e he).isJump⟩
  | some control =>
    rw [perform_control p step hc] at h
    cases hs : s.frames with
    | nil =>
      rw [hs] at h
      cases h
      refine .inl ⟨refl_of RunState.Works s, fun o ho => ?_, fun e he => ?_⟩
      · cases ho
      · cases he
        rfl
    | cons f fs =>
      rw [hs] at h
      cases h
      exact .inr ⟨control, by simp, rfl, rfl⟩

theorem perform_error {p : Program σ π} {step : String} {action : Action} {s t : RunState σ π}
    {e : RunError} (h : perform p step action s = (.error e, t)) :
    e.OfAction step action.path? := by
  cases hc : action.control? with
  | none => exact (perform_working p step hc).fails s e (congrArg Prod.fst h)
  | some control =>
    rw [perform_control p step hc] at h
    split at h
    · cases h
      exact .outsideLoop
    · cases h

theorem perform_frames {p : Program σ π} {step : String} {action : Action} {s t : RunState σ π}
    {r : Except RunError Outcome} (h : perform p step action s = (r, t)) : t.frames = s.frames := by
  rcases perform_cases h with ⟨hw, -⟩ | ⟨control, -, -, rfl⟩
  · exact hw.frames
  · rfl

theorem perform_progress {p : Program σ π} {step : String} {action : Action} {s t : RunState σ π}
    {r : Except RunError Outcome} (h : perform p step action s = (r, t)) :
    t.progress = s.progress := by
  rcases perform_cases h with ⟨hw, -⟩ | ⟨control, -, -, rfl⟩
  · exact hw.progress
  · rfl

theorem perform_log {p : Program σ π} {step : String} {action : Action} {s t : RunState σ π}
    {r : Except RunError Outcome} (h : perform p step action s = (r, t)) :
    ∃ new, t.log = new ++ s.log ∧ ∀ e ∈ new, e.isWork = true ∨ ∃ c, e = .requested c := by
  rcases perform_cases h with ⟨hw, -⟩ | ⟨control, -, -, rfl⟩
  · obtain ⟨new, hl, hn⟩ := hw.log
    exact ⟨new, hl, fun e he => .inl (hn e he)⟩
  · exact ⟨[.requested control], rfl, fun e he => .inr ⟨control, List.mem_singleton.mp he⟩⟩

theorem perform_jumps {p : Program σ π} {step : String} {action : Action} {s t : RunState σ π}
    {r : Except RunError Outcome} (h : perform p step action s = (r, t)) : t.jumps = s.jumps := by
  rcases perform_cases h with ⟨hw, -⟩ | ⟨control, -, -, rfl⟩
  · exact hw.jumps
  · rfl

theorem perform_tracks {p : Program σ π} {step : String} {action : Action} {s t : RunState σ π}
    {r : Except RunError Outcome} (h : perform p step action s = (r, t)) (P : String → Prop) :
    Tracks P s t := by
  rcases perform_cases h with ⟨hw, -⟩ | ⟨control, -, -, rfl⟩
  · exact hw.context.mono fun _ _ => trivial
  · exact .of_eq rfl rfl

end Program
end Workflow
