import Workflow.Proofs.Store.Merge
import Workflow.Proofs.Store.Objects
import Workflow.Proofs.Store.Permission

/-!
# Merging key by key

A merge that is permitted succeeds, and what it does can be told for each key by itself: what the
key has afterwards and what is reported of it depend on the two values of this key and on the
strategy alone. Where the prior values are reported, merging the report over what is there brings
them back.
-/
namespace Workflow
open Attempt
variable {σ : Type}

/-- How a strategy settles a conflict between a prior and an incoming value: which value stays and
which one is reported. Objects that are merged have the fields of both, and the incoming ones
win. -/
inductive MergeStrategy.Settles :
    MergeStrategy → (prior incoming stays reported : Json) → Prop where
  | overwrite (prior incoming : Json) : Settles .overwrite prior incoming incoming prior
  | keep (prior incoming : Json) : Settles .keep prior incoming prior incoming
  | union {old new both : Table Json} : (old.Sorted → both.Sorted) →
      (∀ field, both.get? field = (new.get? field).or (old.get? field)) →
      Settles .merge (.obj old) (.obj new) (.obj both) (.obj old)
  | replace {prior incoming : Json} :
      (∀ old new, prior = .obj old → incoming ≠ .obj new) →
      Settles .merge prior incoming incoming prior

theorem Table.Sorted.get?_union {α : Type} {u : Table α} (h : u.Sorted) (t : Table α)
    (k : String) : (t.union u).get? k = (u.get? k).or (t.get? k) := by
  rw [union, get?_insertAll, lookup_reverse h.distinct]
  rfl

/-- The fields of an object, if a value is one, stand in key order. -/
def Json.FieldsSorted (v : Json) : Prop := ∀ fields, v = .obj fields → fields.Sorted

theorem MergeStrategy.settle_settles (s : MergeStrategy) (prior : Json) {incoming : Json}
    (h : incoming.FieldsSorted) :
    s.Settles prior incoming (s.settle prior incoming).1 (s.settle prior incoming).2 := by
  cases s with
  | overwrite => exact .overwrite prior incoming
  | keep => exact .keep prior incoming
  | merge =>
    unfold settle
    dsimp only
    split
    · rename_i old new
      have hnew : new.Sorted := h new rfl
      exact .union (fun hold => hold.insertAll _) (hnew.get?_union old)
    · rename_i hobjects
      exact .replace fun old new hprior hincoming => hobjects old new hprior hincoming

namespace Store
variable {env : Environment σ} {actor : Actor} {s : Store σ} {ns : String} {values : Table Json}

/-- A merge that is permitted succeeds. -/
theorem merge_of_may (env : Environment σ) (strategy : MergeStrategy)
    (h : ∀ key ∈ values.keys, actor.May s.permissions (StorePath.mk ns key).resource .write) :
    ∃ t, Store.merge env actor ns values strategy s =
        (.ok (s.data.merge s.now ns values strategy).conflicts, t) ∧
      t.data = (s.data.merge s.now ns values strategy).data ∧ t.permissions = s.permissions := by
  have hask : ∀ resource ∈ values.keys.map fun key => (StorePath.mk ns key).resource,
      actor.May s.permissions resource .write := List.forall_mem_map.mpr h
  rcases hrun : Store.merge env actor ns values strategy s with ⟨r, t⟩
  rw [Store.merge, bind_of_ok (authorizeAll_of_may hask), get_bind, modify_bind, lift_bind] at hrun
  obtain ⟨rfl, hnoted⟩ := logged hrun fun _ => rfl
  have helse : Elsewhere (s.mapData fun _ => (s.data.merge s.now ns values strategy).data)
      (s.mergeIn env ns values strategy) := releaseAll_elsewhere env _ _ _
  refine ⟨t, rfl, hnoted.data.trans helse.data, hnoted.permissions.trans ?_⟩
  exact (congrArg Store.permissions helse :)

end Store

/-- **A merge, key by key.** A merge that is permitted succeeds and changes no other namespace and
no key that has no incoming value. A key that has one of the two values keeps it, and nothing is
reported; if it has both, the strategy settles which one stays and which one is reported. If prior
values are reported, the report can be merged over the namespace by the same actor, and every key
that had a value has it again. -/
theorem merge_pointwise (env : Environment σ) (actor : Actor) (s : Store σ) (ns : String)
    (values : Table Json) (strategy : MergeStrategy) (hvalues : values.Sorted)
    (hfields : ∀ v ∈ values.values, v.FieldsSorted)
    (hmay : ∀ key ∈ values.keys,
      actor.May s.permissions (StorePath.mk ns key).resource .write) :
    ∃ reported t, Store.merge env actor ns values strategy s = (.ok reported, t) ∧
      (∀ ns' ≠ ns, t.data.space? ns' = s.data.space? ns') ∧
      (∀ key, values.get? key = none →
        t.data.value? ns key = s.data.value? ns key ∧ reported.get? key = none) ∧
      (∀ key incoming, values.get? key = some incoming → s.data.value? ns key = none →
        t.data.value? ns key = some incoming ∧ reported.get? key = none) ∧
      (∀ key incoming prior, values.get? key = some incoming →
        s.data.value? ns key = some prior → ∃ stays report,
          t.data.value? ns key = some stays ∧ reported.get? key = some report ∧
          strategy.Settles prior incoming stays report) ∧
      (strategy ≠ .keep → ∃ again u,
        Store.merge env actor ns reported .overwrite t = (.ok again, u) ∧
        ∀ key prior, s.data.value? ns key = some prior →
          u.data.value? ns key = some prior) := by
  obtain ⟨t, hrun, hdata, hpermissions⟩ := Store.merge_of_may env strategy hmay
  have hvalue (key : String) := s.data.merge_value? s.now ns hvalues strategy key
  have hreport (key : String) := s.data.merge_conflicts_get? s.now ns hvalues strategy key
  rw [← hdata] at hvalue
  refine ⟨_, t, hrun, ?_, ?_, ?_, ?_, ?_⟩
  · intro ns' hns
    rw [hdata]
    exact StoreData.space?_merge hns _ _ _ _
  · intro key hkey
    rw [hvalue, hreport, hkey]
    exact ⟨rfl, rfl⟩
  · intro key incoming hkey hnone
    rw [hvalue, hreport, hkey, hnone]
    exact ⟨rfl, rfl⟩
  · intro key incoming prior hkey hprior
    have hentry : (key, incoming) ∈ values.entries := hvalues.mem_iff.mpr hkey
    have hmem : incoming ∈ values.values := List.mem_map_of_mem (f := Prod.snd) hentry
    refine ⟨_, _, ?_, ?_, strategy.settle_settles prior (hfields incoming hmem)⟩
    · rw [hvalue, hkey, hprior]
      rfl
    · rw [hreport, hkey, hprior]
      rfl
  · intro hkeep
    have hagain : ∀ key ∈ (s.data.merge s.now ns values strategy).conflicts.keys,
        actor.May t.permissions (StorePath.mk ns key).resource .write := by
      intro key hkey
      rw [hpermissions]
      apply hmay
      by_contra hnone
      rw [Table.mem_keys, StoreData.merge_conflicts_none hnone] at hkey
      cases hkey
    obtain ⟨u, hundo, hdata', -⟩ := Store.merge_of_may env .overwrite hagain
    refine ⟨_, u, hundo, fun key prior hprior => ?_⟩
    rw [hdata', hdata]
    exact s.data.merge_undone s.now t.now ns hvalues hkeep hprior

/-- An object is merged with the one that is there and another key is added, by somebody who may
write both keys; the report brings the former object back. -/
theorem merge_pointwise_fields :
    let old : Table Json := .singleton "x" .null
    let values : Table Json := ⟨[("j", .null), ("k", .obj (.singleton "y" (.bool true)))]⟩
    let s := Store.holding (Policy.allBut "a\\.z") "a" "k" (.obj old)
    ∃ reported t u again,
      Store.merge .inMemory (.ofRole "r") "a" values .merge s = (.ok reported, t) ∧
      t.data.value? "a" "j" = some .null ∧ reported.get? "j" = none ∧
      (∃ both, t.data.value? "a" "k" = some (.obj both) ∧ both.get? "x" = some .null ∧
        both.get? "y" = some (.bool true)) ∧
      reported.get? "k" = some (.obj old) ∧
      Store.merge .inMemory (.ofRole "r") "a" reported .overwrite t = (.ok again, u) ∧
      u.data.value? "a" "k" = some (.obj old) := by
  intro old values s
  have hs : s.data.value? "a" "k" = some (.obj old) ∧ s.data.value? "a" "j" = none ∧
      s.permissions.allows "r" "a.j" .write = true ∧
      s.permissions.allows "r" "a.k" .write = true := by
    refine ⟨rfl, rfl, ?_, ?_⟩
    all_goals
      rw [Store.holding_permissions]
      cbv
  obtain ⟨hk, hj, hmayj, hmayk⟩ := hs
  have hvalues : values.Sorted := by
    refine .cons ?_ (List.pairwise_singleton _ _)
    intro e he
    rw [List.mem_singleton.mp he]
    exact (by decide : "j" < "k")
  have hfields : ∀ v ∈ values.values, v.FieldsSorted := by
    rintro v hv fields rfl
    simp only [values, Table.values, List.map_cons, List.map_nil, List.mem_cons, reduceCtorEq,
      Json.obj.injEq, List.not_mem_nil, or_false, false_or] at hv
    rw [hv]
    exact List.pairwise_singleton _ _
  have hmay : ∀ key ∈ values.keys,
      (Actor.ofRole "r").May s.permissions (StorePath.mk "a" key).resource .write := by
    intro key hkey
    rcases List.mem_cons.mp hkey with rfl | hkey
    · exact .inr hmayj
    · rw [List.mem_singleton.mp hkey]
      exact .inr hmayk
  obtain ⟨reported, t, hrun, -, -, hnew, hboth, hagain⟩ :=
    merge_pointwise .inMemory (.ofRole "r") s "a" values .merge hvalues hfields hmay
  obtain ⟨again, u, hundo, hrestored⟩ := hagain (by decide)
  obtain ⟨htj, hrj⟩ := hnew "j" .null rfl hj
  obtain ⟨stays, report, htk, hrk, hsettles⟩ :=
    hboth "k" (.obj (.singleton "y" (.bool true))) (.obj old) rfl hk
  refine ⟨reported, t, u, again, hrun, htj, hrj, ?_, ?_, hundo, hrestored "k" _ hk⟩
  · cases hsettles with
    | @union _ _ both _ hfield => exact ⟨both, htk, hfield "x", hfield "y"⟩
    | replace hno => exact absurd rfl (hno old _ rfl)
  · cases hsettles with
    | union => exact hrk
    | replace => exact hrk

end Workflow
