import Mathlib.Data.List.Permutation
import Workflow.Proofs.Store.Guarded

/-!
# What permission protects

A refused call has no effect. A call that is not refused changes the value of a key only if its
actor may write or delete this key, or whole namespaces as the call does. The second is a question
about the namespace itself, which policies about its keys do not answer.
-/
namespace Workflow
open Store Attempt
variable {σ : Type}

/-- Whether an actor may change the value of a key by a call. -/
def StoreCall.Permits (call : StoreCall) (actor : Actor) (p : Permissions) (ns key : String) :
    Prop :=
  actor.May p (StorePath.mk ns key).resource .write ∨
    actor.May p (StorePath.mk ns key).resource .delete ∨
    ∃ access, call.spaceAccess? = some access ∧ actor.May p (spaceResource ns) access

theorem StoreCall.perform_guarded {env : Environment σ}
    {stored : σ → String → String → Option Json} (henv : env.Keeps stored) (actor : Actor)
    (call : StoreCall) (s : Store σ) :
    Guarded env stored actor (call.Permits actor s.permissions) s (call.perform env actor s) := by
  have within (ns : String) (key : Option String) {call : StoreCall}
      (hcall : key = none → call.spaceAccess? = some .delete)
      (h : actor.May s.permissions (resourceOf ns key) .delete) (ns' key' : String)
      (hw : Within ns key ns' key') : call.Permits actor s.permissions ns' key' := by
    obtain ⟨rfl, hk⟩ := hw
    cases key with
    | some k =>
      obtain rfl := hk k rfl
      exact .inr (.inl h)
    | none => exact .inr (.inr ⟨_, hcall rfl, h⟩)
  cases call with
  | set ns key v opts => exact (set_guarded henv v opts .inl).bind fun _ => .pure trivial
  | read ns key => exact (read_guarded henv ns key).bind fun _ => .pure trivial
  | readSpace ns => exact (readSpace_guarded henv ns).bind fun _ => .pure trivial
  | delete ns key =>
    refine (delete_guarded henv (within ns key fun hk => ?_)).bind fun _ => .pure trivial
    subst hk
    rfl
  | contains ns key => exact (contains_guarded henv ns key).bind fun _ => .pure trivial
  | keys ns => exact (keys_guarded ns).bind fun _ => .pure trivial
  | append ns key v => exact (append_guarded henv v .inl).bind fun _ => .pure trivial
  | merge ns values strategy =>
    exact (merge_guarded henv strategy fun _ => .inl).bind fun _ => .pure trivial
  | snapshot ns => exact (snapshot_guarded henv ns).bind fun _ => .pure trivial
  | restore id =>
    refine (restore_guarded henv id fun ns h key => ?_).bind fun _ => .pure trivial
    exact .inr (.inr ⟨_, rfl, h⟩)
  | savePayload ns key source metadata =>
    exact (savePayload_guarded henv source metadata .inl).bind fun _ => .pure trivial
  | loadPayload ns key =>
    refine (readPayload_guarded henv _ ns key _ fun o ho path x => ?_).bind fun _ => .pure trivial
    exact (henv.objects o ho).load path.ns path.key x
  | openPayload ns key =>
    refine (readPayload_guarded henv _ ns key _ fun o ho path x => ?_).bind fun _ => .pure trivial
    exact (henv.objects o ho).openSource path.ns path.key x
  | save ns =>
    refine (save_guarded henv ns fun ns h key => ?_).bind fun _ => .pure trivial
    exact .inr (.inr ⟨_, rfl, h⟩)
  | load ns =>
    refine (load_guarded henv ns fun ns h key => ?_).bind fun _ => .pure trivial
    exact .inr (.inr ⟨_, rfl, h⟩)
  | deleteStored ns key =>
    refine (deleteStored_guarded henv (within ns key fun hk => ?_)).bind fun _ => .pure trivial
    subst hk
    rfl

def Environment.inMemory : Environment Values := ⟨some .memory, none, none, 0⟩

theorem Environment.inMemory_keeps : inMemory.Keeps Values.value? where
  backend := fun _ hb => Option.some.inj hb ▸ Backend.memory_keeps
  objects := fun _ ho => nomatch ho
  sink := fun _ hk => nomatch hk

theorem Environment.inMemory_spares : inMemory.Spares (id : Values → Values) where
  namespaces := fun _ hb _ => Option.some.inj hb ▸ rfl
  sink := fun _ hk => nomatch hk

/-- Whoever may delete does so, though the call fails if there are objects to delete as well. -/
theorem StoreCall.delete_inMemory {actor : Actor} {ns : String} {key : Option String}
    {s : Store Values} (h : actor.May s.permissions (resourceOf ns key) .delete) :
    ∃ t, (StoreCall.delete ns key).perform .inMemory actor s =
        (if (referencesIn key (s.data.values.find ns key)).isEmpty then
          .ok (.flag (s.data.values.find ns key).isSome)
        else .error (.unavailable .objects), t) ∧
      t.data = s.data.remove ns key := by
  have hdrop (paths : List StorePath) (u : Store Values) : dropObjects .inMemory paths u =
      (if paths.isEmpty then .ok ⟨⟩ else .error (.unavailable .objects), u) := by
    cases paths <;> rfl
  rw [StoreCall.perform, Store.delete, bind_assoc, bind_apply, authorize_of_may h]
  simp only [bind_assoc, get_bind, modify_bind, lift_bind]
  rw [bind_apply, hdrop]
  cases (referencesIn key (s.data.values.find ns key)).isEmpty <;> exact ⟨_, rfl, rfl⟩

def Store.holding (policies : List Policy) (ns key : String) (v : Json) : Store Values :=
  let permissions := (Permissions.addAll .resource ⟨true, []⟩ policies).toOption.getD .disabled
  let empty : Store Values :=
    ⟨.empty, [], permissions, default, .empty 10, default, default, .empty⟩
  ((StoreCall.set ns key v .default).perform .inMemory .system empty).2

theorem Store.holding_permissions (policies : List Policy) (ns key : String) (v : Json) :
    (Store.holding policies ns key v).permissions =
      (Permissions.addAll .resource ⟨true, []⟩ policies).toOption.getD .disabled :=
  rfl

def Policy.allBut (pattern : String) : List Policy :=
  [⟨"*", ".*", [.any], .allow⟩, ⟨"*", pattern, [.any], .deny⟩]

/-- A call that is refused leaves the store as it is, with its data, snapshots and schemas, and
what lies outside as far as listing the stored namespaces and writing the trail leave it alone. Only
one entry is added, which tells the role of the actor and that it was denied: the trail has it at
its end, and the sink is given it. -/
theorem refused_unchanged {env : Environment σ} {actor : Actor} {call : StoreCall}
    {s t : Store σ} {cause : PermissionError}
    (h : call.perform env actor s = (.error (.permission cause), t)) :
    ∃ (entry : TrailEntry) (x : σ), entry.Denies actor s ∧ env.Listed s.outside x ∧
      t = { s with
        trail := s.trail.record entry
        ids := fun n => s.ids (n + 1)
        outside := env.pass entry x } ∧
      s.trail.Adds [entry] t.trail ∧ t.trail.entries.getLast? = some entry ∧
      ∀ (γ : Type) (view : σ → γ), env.Spares view → view t.outside = view s.outside := by
  have hg := call.perform_guarded env.keeps_nothing actor s
  rw [h] at hg
  cases hg with
  | refused hd =>
    have hview (γ : Type) (view : σ → γ) (hv : env.Spares view) :
        view t.outside = view s.outside := hd.view hv
    obtain ⟨entry, x, hentry, hx, ht⟩ := hd
    have hadds : s.trail.Adds [entry] t.trail := by
      rw [ht]
      exact .record s.trail entry
    exact ⟨entry, x, hentry, hx, ht, hadds, hadds.getLast? rfl, hview⟩
  | passed hr _ => cases hr _ rfl

/-- Where no policy allows anything, saving everything is refused, though only after the backend has
been asked for its namespaces. -/
theorem refused_unchanged_save :
    let s := Store.holding [] "a" "k" .null
    ∃ t entry, (StoreCall.save none).perform .inMemory (.ofRole "r") s =
        (.error (.permission (.denied "r" "a.*" .read)), t) ∧
      entry.Denies (.ofRole "r") s ∧ s.trail.Adds [entry] t.trail ∧
      t.trail.entries.getLast? = some entry ∧ t.data = s.data ∧ t.outside = s.outside := by
  have hr : ((StoreCall.save none).perform .inMemory (.ofRole "r")
      (Store.holding [] "a" "k" .null)).1 = .error (.permission (.denied "r" "a.*" .read)) :=
    rfl
  generalize Store.holding [] "a" "k" .null = s at hr
  rcases h : (StoreCall.save none).perform .inMemory (.ofRole "r") s with ⟨r, t⟩
  obtain rfl : r = _ := (congrArg Prod.fst h).symm.trans hr
  obtain ⟨entry, x, hentry, -, ht, hadds, hlast, hview⟩ := refused_unchanged h
  have hdata : t.data = s.data := by rw [ht]
  exact ⟨t, entry, h, hentry, hadds, hlast, hdata,
    hview Values id Environment.inMemory_spares⟩

/-- A value of a key, in the store or in its backend, is only changed or removed by an actor that
may write or delete the key; or by a call about whole namespaces, if the actor may have the access
to the namespace that the call asks for. -/
theorem changes_permitted {env : Environment σ} {stored : σ → String → String → Option Json}
    (henv : env.Keeps stored) {actor : Actor} (hb : actor.bypass = false) {call : StoreCall}
    {s t : Store σ} {r : Except StoreError StoreAnswer} (h : call.perform env actor s = (r, t))
    {ns key : String}
    (hc : t.data.value? ns key ≠ s.data.value? ns key ∨
      stored t.outside ns key ≠ stored s.outside ns key) :
    s.permissions.allows actor.role (StorePath.mk ns key).resource .write = true ∨
      s.permissions.allows actor.role (StorePath.mk ns key).resource .delete = true ∨
      ∃ access, call.spaceAccess? = some access ∧
        s.permissions.allows actor.role (spaceResource ns) access = true := by
  have may {resource : String} {access : Access} (h : actor.May s.permissions resource access) :
      s.permissions.allows actor.role resource access = true := h.resolve_left (by simp [hb])
  have hg := call.perform_guarded henv actor s
  rw [h] at hg
  have hp : call.Permits actor s.permissions ns key := by
    by_contra hn
    cases hg with
    | refused hd =>
      rcases hc with hc | hc
      · obtain ⟨entry, x, -, -, ht⟩ := hd
        rw [ht] at hc
        exact hc rfl
      · exact hc (congrFun₂ (hd.view henv.spares) ns key)
    | passed _ hcon =>
      rcases hc with hc | hc
      · exact hc (hcon.held ns key hn)
      · exact hc (hcon.stored ns key hn)
  rcases hp with hp | hp | ⟨access, hcall, hp⟩
  · exact .inl (may hp)
  · exact .inr (.inl (may hp))
  · exact .inr (.inr ⟨access, hcall, may hp⟩)

/-- The policies about a key do not matter when its namespace is deleted. -/
theorem changes_unpermitted :
    let s := Store.holding (Policy.allBut "a\\.k") "a" "k" .null
    let t := ((StoreCall.delete "a" none).perform .inMemory (.ofRole "r") s).2
    s.permissions.enabled = true ∧
      s.data.value? "a" "k" = some .null ∧ t.data.value? "a" "k" = none ∧
      s.permissions.allows "r" "a.k" .write = false ∧
      s.permissions.allows "r" "a.k" .delete = false := by
  have hs : let s := Store.holding (Policy.allBut "a\\.k") "a" "k" .null
      s.permissions.enabled = true ∧ s.data.value? "a" "k" = some .null ∧
        s.permissions.allows "r" "a.*" .delete = true ∧
        s.permissions.allows "r" "a.k" .write = false ∧
        s.permissions.allows "r" "a.k" .delete = false := by
    refine ⟨by decide +kernel, rfl, ?_, ?_, ?_⟩
    all_goals
      rw [Store.holding_permissions]
      cbv
  dsimp only at hs ⊢
  generalize Store.holding (Policy.allBut "a\\.k") "a" "k" .null = s at hs
  obtain ⟨henabled, hvalue, hmay, hkey⟩ := hs
  obtain ⟨t, h, ht⟩ : ∃ t, (StoreCall.delete "a" none).perform .inMemory (.ofRole "r") s = _ ∧ _ :=
    StoreCall.delete_inMemory (.inr hmay)
  rw [h]
  refine ⟨henabled, hvalue, ?_, hkey⟩
  exact (congrArg (StoreData.value? · "a" "k") ht).trans
    (StoreData.value?_remove_self fun k hk => absurd hk (Option.not_mem_none k))

/-- Another key of the namespace is deleted by an actor that may do so. -/
theorem changes_permitted_delete :
    let s := Store.holding (Policy.allBut "a\\.k") "a" "j" .null
    let t := ((StoreCall.delete "a" (some "j")).perform .inMemory (.ofRole "r") s).2
    t.data.value? "a" "j" ≠ s.data.value? "a" "j" ∧
      (s.permissions.allows "r" "a.j" .write = true ∨
        s.permissions.allows "r" "a.j" .delete = true) := by
  have hmay : (Store.holding (Policy.allBut "a\\.k") "a" "j" .null).permissions.allows "r" "a.j"
      .delete = true := by
    rw [Store.holding_permissions]
    cbv
  have hs : (Store.holding (Policy.allBut "a\\.k") "a" "j" .null).data.value? "a" "j" =
      some .null := rfl
  generalize Store.holding (Policy.allBut "a\\.k") "a" "j" .null = s at hmay hs
  obtain ⟨t, h, ht⟩ : ∃ t, (StoreCall.delete "a" (some "j")).perform .inMemory (.ofRole "r") s =
      _ ∧ _ := StoreCall.delete_inMemory (.inr hmay)
  have hc : t.data.value? "a" "j" ≠ s.data.value? "a" "j" := by
    rw [hs, ht, StoreData.value?_remove_self fun _ hk => Option.some.inj hk]
    exact (Option.some_ne_none Json.null).symm
  dsimp only
  rw [h]
  have hp := changes_permitted Environment.inMemory_keeps rfl h (.inl hc)
  rcases hp with hp | hp | ⟨_, hd, -⟩
  · exact ⟨hc, .inl hp⟩
  · exact ⟨hc, .inr hp⟩
  · cases hd

end Workflow
