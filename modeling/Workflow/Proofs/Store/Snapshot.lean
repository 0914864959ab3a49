import Workflow.Proofs.Store.Ordered
import Workflow.Proofs.Store.Permission

/-!
# Snapshots and what restoring them does

The snapshots of a run are numbered from one on. Whatever happens after a snapshot was taken, it
stays in history as it is, and restoring it makes the namespace what it was then, with metrics as if
each value had been written once, while everything else stays.
-/
namespace Workflow
open Attempt
variable {σ : Type}

namespace Store
variable {env : Environment σ} {actor : Actor} {s t u : Store σ} {id : Nat} {snap : Snapshot}
  {r : Except StoreError StoreAnswer}

/-- The second store is the first one after a snapshot has taken the place of its namespace. -/
structure Restored (snap : Snapshot) (s t : Store σ) : Prop where
  space : t.data.space? snap.ns = some snap.values
  metrics : t.metrics? snap.ns =
    if snap.values.entries = [] then none else some (.ofValues s.now snap.values)
  others : ∀ ns, ns ≠ snap.ns →
    t.data.space? ns = s.data.space? ns ∧ t.metrics? ns = s.metrics? ns
  history : t.history = s.history

theorem restored_of_noted (hsnap : snap.values.Sorted)
    (h : Noted env actor (s.mapData (·.replace s.now snap.ns snap.values)) t) :
    Restored snap s t where
  space := by simp [h.data, mapData, StoreData.replace_space?]
  metrics := by simp [metrics?, h.data, mapData, StoreData.replace_metrics hsnap]
  others ns hns := by
    simp [metrics?, h.data, mapData, StoreData.replace_space?, StoreData.replace_metrics hsnap, hns]
  history := h.history

theorem restore_unknown (h : s.snapshot? id = none) :
    ∃ t, (StoreCall.restore id).perform env actor s = (.ok (.flag false), t) ∧
      t.data = s.data ∧ t.history = s.history := by
  have hr : ((StoreCall.restore id).perform env actor s).1 = .ok (.flag false) := by
    simp only [StoreCall.perform, restore, bind_assoc, get_bind, h, lift_bind, pure_bind,
      pure_apply]
  obtain ⟨t, ht⟩ : ∃ t, (StoreCall.restore id).perform env actor s = (.ok (.flag false), t) :=
    ⟨_, Prod.ext hr rfl⟩
  cases StoreCall.perform_ends ht with
  | unknown _ hn => exact ⟨t, ht, hn.data, hn.history⟩
  | payload hc => rcases hc with hc | hc <;> cases hc

theorem restore_may (h : s.snapshot? id = some snap)
    (hmay : actor.May s.permissions (spaceResource snap.ns) .write) :
    ((StoreCall.restore id).perform env actor s).1 = .ok (.flag true) := by
  simp only [StoreCall.perform, restore, bind_assoc, get_bind, h]
  rw [bind_apply, authorize_of_may hmay]
  rfl

theorem restore_restored (h : s.snapshot? id = some snap) (hs : s.Ordered) {answer : StoreAnswer}
    (hr : (StoreCall.restore id).perform env actor s = (.ok answer, t)) :
    answer = .flag true ∧ Restored snap s t := by
  cases StoreCall.perform_ends hr with
  | unknown hnone _ => simp [h] at hnone
  | restore hsnap hn =>
    obtain rfl := Option.some.inj (h.symm.trans hsnap)
    exact ⟨rfl, restored_of_noted (hs.history _ (snapshot?_mem h)) hn⟩
  | payload hc => rcases hc with hc | hc <;> cases hc

theorem snapshot?_of_prefix (h : s.history <+: t.history) (hs : s.snapshot? id = some snap) :
    t.snapshot? id = some snap := by
  obtain ⟨later, hlater⟩ := h
  unfold snapshot? at hs ⊢
  split at hs
  · cases hs
  · rename_i hid
    have hlt : id - 1 < s.history.length := (List.getElem?_eq_some_iff.mp hs).1
    rw [if_neg hid, ← hlater, List.getElem?_append_left hlt]
    exact hs

theorem Run.snapshot_of_mem {steps : List (StoreStep σ)} {step : StoreStep σ} {ns : String}
    (h : Run env s steps t) (hstep : step ∈ steps) (hcall : step.call = .snapshot ns)
    (hanswer : step.answer env = .ok (.number id)) :
    t.snapshot? id = some (step.before.picture ns) := by
  obtain ⟨before, later, rfl⟩ := List.append_of_mem hstep
  obtain ⟨-, hlater⟩ := h.split
  apply snapshot?_of_prefix hlater.history_prefix
  obtain ⟨ns', hcall', hr, ht⟩ | ⟨hnone, -⟩ := perform_history (step.perform_eq env)
  · obtain rfl : ns = ns' := StoreCall.snapshot.inj (hcall.symm.trans hcall')
    obtain rfl : id = _ := StoreAnswer.number.inj (Except.ok.inj (hanswer.symm.trans hr))
    simp [snapshot?, ht]
  · simp [hcall, hanswer, StoreCall.taken?] at hnone

theorem snapshot?_eq_none (h : id ∉ List.range' 1 s.history.length) : s.snapshot? id = none := by
  rw [List.mem_range'_1] at h
  unfold snapshot?
  split
  · rfl
  · apply List.getElem?_eq_none
    omega

end Store

/-- In every run from a fresh store the snapshots are numbered from one on in the order in which
they are taken, and history stays as it is whatever comes later. Restoring a snapshot that was taken
in the run, by whoever may do so, makes its namespace exactly what it was then and changes nothing
else; restoring by any other number does nothing. -/
theorem snapshots_exact {env : Environment σ} {s t : Store σ} {steps : List (StoreStep σ)}
    (hs : s.Fresh) (h : s.Run env steps t) :
    steps.filterMap (·.taken? env) = List.range' 1 t.history.length ∧
      (∀ later u, t.Run env later u → t.history <+: u.history) ∧
      (∀ step ∈ steps, ∀ ns id, step.call = .snapshot ns →
        step.answer env = .ok (.number id) → ∀ actor r u,
          (StoreCall.restore id).perform env actor t = (r, u) →
          (actor.May t.permissions (spaceResource ns) .write → r = .ok (.flag true)) ∧
            ∀ answer, r = .ok answer → answer = .flag true ∧
              Store.Restored (step.before.picture ns) t u) ∧
      ∀ id ∉ steps.filterMap (·.taken? env), ∀ actor, ∃ u,
        (StoreCall.restore id).perform env actor t = (.ok (.flag false), u) ∧
          u.data = t.data ∧ u.history = t.history := by
  have htaken : steps.filterMap (·.taken? env) = List.range' 1 t.history.length := by
    obtain ⟨n, hn, htaken⟩ := h.taken_eq
    rw [hs.history, List.length_nil, Nat.zero_add] at hn htaken
    rw [hn, htaken]
  have hordered := hs.ordered.run h
  refine ⟨htaken, fun later u hu => hu.history_prefix, ?_, ?_⟩
  · intro step hstep ns id hcall hanswer actor r u hr
    have hsnap := h.snapshot_of_mem hstep hcall hanswer
    constructor
    · intro hmay
      have hflag : ((StoreCall.restore id).perform env actor t).1 = .ok (.flag true) :=
        Store.restore_may hsnap hmay
      rwa [hr] at hflag
    · rintro answer rfl
      exact Store.restore_restored hsnap hordered hr
  · intro id hid actor
    rw [htaken] at hid
    exact Store.restore_unknown (Store.snapshot?_eq_none hid)

/-- A namespace that was deleted after its snapshot was taken is there again. -/
theorem snapshots_exact_deleted :
    let run := Store.follow .inMemory (.blank .empty) [(.system, .set "a" "k" .null .default),
      (.system, .snapshot "a"), (.system, .delete "a" none)]
    let now := run.2.now
    run.1.filterMap (·.taken? .inMemory) = [1] ∧ run.2.data.space? "a" = none ∧
      ∃ u, (StoreCall.restore 1).perform .inMemory .system run.2 = (.ok (.flag true), u) ∧
        u.data.space? "a" = some (.singleton "k" .null) ∧
        u.metrics? "a" = some ⟨1, 4, now, now, .singleton "k" ⟨1, 4, now, now, now⟩⟩ := by
  intro run now
  have hrun : Store.Run .inMemory (.blank .empty) run.1 run.2 := Store.follow_run _ _ _
  have hexact := snapshots_exact (Store.blank_fresh _) hrun
  rcases hr : (StoreCall.restore 1).perform .inMemory .system run.2 with ⟨r, u⟩
  have hrestore := hexact.2.2.1 _ (List.mem_cons_of_mem _ List.mem_cons_self) "a" 1 rfl rfl
    .system r u hr
  obtain rfl := hrestore.1 (.inl rfl)
  have hrestored := (hrestore.2 _ rfl).2
  exact ⟨rfl, rfl, u, rfl, hrestored.space, hrestored.metrics⟩

end Workflow
