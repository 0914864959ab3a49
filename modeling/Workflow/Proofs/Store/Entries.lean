import Mathlib.Logic.Relation
import Workflow.Proofs.Store.Guarded

/-!
# Entries that calls leave

Whatever a call does, it leaves entries about its actor. What it asks for at first, permission or
that a value satisfies a schema, changes nothing: it lets the call go on, or ends it with entries
alone.
-/
namespace Workflow.Store
open Attempt Relation
variable {σ α : Type} {env : Environment σ} {actor : Actor} {s t u : Store σ}

/-- The second store is the first one after entries about an actor. -/
def Noted (env : Environment σ) (actor : Actor) : Store σ → Store σ → Prop :=
  ReflTransGen fun s t => ∃ e : TrailEntry, e.actor = actor.role ∧ t = (record env e s).2

namespace Noted

theorem refl (s : Store σ) : Noted env actor s s := ReflTransGen.refl

theorem trans (h : Noted env actor s t) (k : Noted env actor t u) : Noted env actor s u :=
  ReflTransGen.trans h k

theorem eq_with (h : Noted env actor s t) :
    t = { s with trail := t.trail, ids := t.ids, outside := t.outside } := by
  induction h with
  | refl => rfl
  | tail _ h ih =>
    obtain ⟨e, -, rfl⟩ := h
    rw [record_apply, ih]

theorem data (h : Noted env actor s t) : t.data = s.data := by rw [h.eq_with]

theorem history (h : Noted env actor s t) : t.history = s.history := by rw [h.eq_with]

theorem permissions (h : Noted env actor s t) : t.permissions = s.permissions := by rw [h.eq_with]

theorem view {β : Type} {view : σ → β} (h : Noted env actor s t)
    (hv : ∀ k ∈ env.sink, k.Spares view) : view t.outside = view s.outside := by
  induction h with
  | refl => rfl
  | tail _ h ih =>
    obtain ⟨e, -, rfl⟩ := h
    rw [record_apply, ← ih]
    exact Environment.pass_view hv e _

end Noted

theorem log_noted {details : TrailEntry → TrailEntry} (h : ∀ e, (details e).actor = e.actor)
    (operation entityType entityId : String) (s : Store σ) :
    Noted env actor s (log env actor operation entityType entityId details s).2 :=
  .single ⟨_, h _, rfl⟩

theorem logged {operation entityType entityId : String} {details : TrailEntry → TrailEntry}
    {v : α} {r : Except StoreError α}
    (h : ((liftM (log env actor operation entityType entityId details) : StoreAction σ Unit) >>=
      fun _ => pure v) s = (r, t)) (hd : ∀ e, (details e).actor = e.actor) :
    r = .ok v ∧ Noted env actor s t := by
  rw [lift_bind, pure_apply] at h
  cases h
  exact ⟨rfl, log_noted hd _ _ _ s⟩

/-- What is asked at first lets a call go on and changes nothing, or it ends the call with entries
alone. -/
def Gate (env : Environment σ) (actor : Actor) (a : StoreAction σ Unit) : Prop :=
  ∀ s, a s = (.ok ⟨⟩, s) ∨ ∃ e t, a s = (.error e, t) ∧ Noted env actor s t

namespace Gate
variable {a : StoreAction σ Unit} {f : Unit → StoreAction σ α} {r : Except StoreError α}

theorem bind_cases (ha : Gate env actor a) (h : (a >>= f) s = (r, t)) :
    (∃ e, r = .error e ∧ Noted env actor s t) ∨ f ⟨⟩ s = (r, t) := by
  rw [bind_apply] at h
  rcases ha s with hs | ⟨e, u, hs, hn⟩
  · rw [hs] at h
    exact .inr h
  · rw [hs] at h
    cases h
    exact .inl ⟨e, rfl, hn⟩

theorem pure : Gate env actor (Pure.pure ⟨⟩ : StoreAction σ Unit) := fun _ => .inl rfl

theorem bind {f : Unit → StoreAction σ Unit} (ha : Gate env actor a)
    (hf : Gate env actor (f ⟨⟩)) : Gate env actor (a >>= f) := by
  intro s
  rw [bind_apply]
  rcases ha s with hs | ⟨e, t, hs, hn⟩
  · rw [hs]
    exact hf s
  · rw [hs]
    exact .inr ⟨e, t, rfl, hn⟩

end Gate

theorem authorize_gate (operation resource : String) (access : Access) :
    Gate env actor (authorize env actor operation resource access) := by
  intro s
  by_cases hmay : actor.May s.permissions resource access
  · exact .inl (authorize_of_may hmay)
  · exact .inr ⟨_, _, authorize_of_not_may hmay, .single ⟨_, rfl, rfl⟩⟩

theorem authorize_bind_cases {operation resource : String} {access : Access}
    {f : Unit → StoreAction σ α} {r : Except StoreError α}
    (h : (authorize env actor operation resource access >>= f) s = (r, t)) :
    (¬actor.May s.permissions resource access ∧ ∃ cause, r = .error (.permission cause) ∧
      Noted env actor s t) ∨ f ⟨⟩ s = (r, t) := by
  rw [bind_apply] at h
  by_cases hmay : actor.May s.permissions resource access
  · rw [authorize_of_may hmay] at h
    exact .inr h
  · rw [authorize_of_not_may hmay] at h
    cases h
    exact .inl ⟨hmay, _, rfl, .single ⟨_, rfl, rfl⟩⟩

theorem authorizeAll_gate (operation : String) (access : Access) (resources : List String) :
    Gate env actor (authorizeAll env actor operation access resources) := by
  induction resources with
  | nil => exact .pure
  | cons resource resources ih => exact (authorize_gate operation resource access).bind ih

theorem checkValue_gate (resource : String) (v : Json) (schema : Option String) :
    Gate env actor (checkValue env actor resource v schema) := by
  cases schema with
  | none => exact .pure
  | some id =>
    intro s
    rw [checkValue, get_bind]
    cases s.schemas.validate id v with
    | ok _ => exact .inl rfl
    | error e =>
      dsimp only
      rw [lift_bind, throw_apply]
      refine .inr ⟨_, _, rfl, log_noted ?_ _ _ _ s⟩
      exact fun _ => rfl

theorem audited_cases {operation entityType entityId : String} {a : StoreAction σ α}
    {r : Except StoreError α}
    (h : audited env actor operation entityType entityId a s = (r, t)) :
    ∃ u, a s = (r, u) ∧ Noted env actor u t ∧ (∀ v, r = .ok v → t = u) := by
  rw [audited, tryCatch_apply] at h
  rcases ha : a s with ⟨e | v, u⟩
  · rw [ha] at h
    change (if (!e.isRefusal) = true then _ else _ : StoreAction σ α) u = _ at h
    split at h
    · simp only [lift_bind, throw_apply] at h
      cases h
      refine ⟨u, rfl, log_noted ?_ _ _ _ u, fun v hv => ?_⟩
      · exact fun _ => rfl
      · cases hv
    · cases h
      exact ⟨_, rfl, .refl _, fun _ _ => rfl⟩
  · rw [ha] at h
    cases h
    exact ⟨_, rfl, .refl _, fun _ _ => rfl⟩

end Workflow.Store
