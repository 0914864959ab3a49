import Workflow.Proofs.Store.Merge
import Workflow.Proofs.Store.Outcome
import Workflow.Proofs.Store.Permission

/-!
# Values that may not be read

What somebody is answered does not depend on the value of a key that he may not read, unless the
call is not about reading this key: the values of a whole namespace are answered to those who may
read the namespace, and the values that gave way in a merge to those who may write them.
-/
namespace Workflow
open Attempt
variable {σ α : Type}

theorem StoreData.value?_of_space {d : StoreData} {ns : String} {values : Table Json}
    (h : d.space? ns = some values) (key : String) : d.value? ns key = values.get? key :=
  congrArg (fun space : Option (Table Json) => space.bind fun values => values.get? key) h

namespace Store
variable {env : Environment σ} {actor : Actor} {s t : Store σ} {ns key : String}

theorem Gate.bind_result {a : StoreAction σ Unit} (ha : Gate env actor a)
    (f : Unit → StoreAction σ α) (s : Store σ) :
    ((a >>= f) s).1 = (a s).1.bind fun _ => (f ⟨⟩ s).1 := by
  rw [bind_apply]
  rcases ha s with hs | ⟨e, t, hs, -⟩ <;> rw [hs] <;> rfl

theorem authorize_congr (h : t.permissions = s.permissions) (operation resource : String)
    (access : Access) :
    (authorize env actor operation resource access t).1 =
      (authorize env actor operation resource access s).1 := by
  by_cases hmay : actor.May s.permissions resource access
  · rw [authorize_of_may hmay, authorize_of_may (h.symm ▸ hmay)]
  · rw [authorize_of_not_may hmay, authorize_of_not_may (h.symm ▸ hmay)]

theorem authorizeAll_congr (h : t.permissions = s.permissions) (operation : String)
    (access : Access) (resources : List String) :
    (authorizeAll env actor operation access resources t).1 =
      (authorizeAll env actor operation access resources s).1 := by
  induction resources with
  | nil => rfl
  | cons resource resources ih =>
    rw [authorizeAll, (authorize_gate _ _ _).bind_result, (authorize_gate _ _ _).bind_result, ih,
      authorize_congr h]

theorem may_of_authorizeAll {operation : String} {access : Access} {resources : List String}
    (h : (authorizeAll env actor operation access resources s).1 = .ok ⟨⟩) (resource : String)
    (hmem : resource ∈ resources) : actor.May s.permissions resource access := by
  induction resources with
  | nil => cases hmem
  | cons first resources ih =>
    rw [authorizeAll, (authorize_gate _ _ _).bind_result] at h
    by_cases hmay : actor.May s.permissions first access
    · rw [authorize_of_may hmay] at h
      rcases List.mem_cons.mp hmem with rfl | hmem
      · exact hmay
      · exact ih h hmem
    · rw [authorize_of_not_may hmay] at h
      cases h

theorem readSpace_result (env : Environment σ) (actor : Actor) (ns : String) (s : Store σ) :
    (readSpace env actor ns s).1 =
      (authorize env actor "read" (spaceResource ns) .read s).1.map fun _ => s.data.space? ns := by
  rw [readSpace, (authorize_gate _ _ _).bind_result, get_bind]
  cases (authorize env actor "read" (spaceResource ns) .read s).1 with
  | error e => rfl
  | ok _ => cases hv : s.data.space? ns <;> rfl

theorem merge_result (env : Environment σ) (actor : Actor) (ns : String) (values : Table Json)
    (strategy : MergeStrategy) (s : Store σ) :
    (Store.merge env actor ns values strategy s).1 =
      (authorizeAll env actor "merge" .write
        (values.keys.map fun key => (StorePath.mk ns key).resource) s).1.map
        fun _ => (s.data.merge s.now ns values strategy).conflicts := by
  rw [Store.merge, (authorizeAll_gate _ _ _).bind_result, get_bind]
  cases (authorizeAll env actor "merge" .write
    (values.keys.map fun key => (StorePath.mk ns key).resource) s).1 <;> rfl

theorem audited_result (operation entityType entityId : String) (a : StoreAction σ α)
    (s : Store σ) :
    (audited env actor operation entityType entityId a s).1 = (a s).1 := by
  rcases h : audited env actor operation entityType entityId a s with ⟨r, t⟩
  obtain ⟨u, hu, -⟩ := audited_cases h
  rw [hu]

theorem read_of_may (h : actor.May s.permissions (StorePath.mk ns key).resource .read) :
    read env actor ns key s = (.ok (s.data.value? ns key),
      (log env actor "read" "context" (StorePath.mk ns key).resource
        (·.withMeta "exists" (.bool (s.data.value? ns key).isSome))
        (s.mapData (·.look s.now ns (some key)))).2) := by
  rw [read, bind_of_ok (authorize_of_may h), get_bind]
  cases hv : s.data.value? ns key with
  | none =>
    have hfind : s.data.values.find ns (some key) = none := hv
    rw [mapData_look_of_none hfind]
    rfl
  | some v =>
    have hfind : s.data.values.find ns (some key) = some v := hv
    rw [mapData_look_of_some hfind]
    rfl

theorem read_result (env : Environment σ) (actor : Actor) (ns key : String) (s : Store σ) :
    (read env actor ns key s).1 =
      (authorize env actor "read" (StorePath.mk ns key).resource .read s).1.map
        fun _ => s.data.value? ns key := by
  by_cases hmay : actor.May s.permissions (StorePath.mk ns key).resource .read
  · rw [read_of_may hmay, authorize_of_may hmay]
    rfl
  · rw [read, bind_of_error (authorize_of_not_may hmay), authorize_of_not_may hmay]
    rfl

theorem readPayload_of_not_may {operation : String} {held : Bytes → α}
    {referred : ObjectStore σ → StorePath → Attempt σ ObjectError α}
    (h : ¬actor.May s.permissions (StorePath.mk ns key).resource .read) :
    (readPayload env actor operation ns key held referred s).1 =
      .error (.permission (.denied actor.role (StorePath.mk ns key).resource .read)) := by
  rw [readPayload_eq, audited_result, read, bind_of_error (bind_of_error (authorize_of_not_may h))]

theorem readPayload_of_may {operation : String} {held : Bytes → α}
    {referred : ObjectStore σ → StorePath → Attempt σ ObjectError α}
    (h : actor.May s.permissions (StorePath.mk ns key).resource .read) :
    (readPayload env actor operation ns key held referred s).1 =
      (fetch env ⟨ns, key⟩ (s.data.value? ns key) held referred
        (env.pass ((TrailEntry.plain (s.ids 0) s.now "read" "context" (StorePath.mk ns key).resource
          actor.role).withMeta "exists" (.bool (s.data.value? ns key).isSome)) s.outside)).1 := by
  rw [readPayload_eq, audited_result, bind_of_ok (read_of_may h)]
  have hlog (details : TrailEntry → TrailEntry) (u : Store σ) :
      (log env actor "read" "context" (StorePath.mk ns key).resource details u).2.outside =
        env.pass (details (.plain (u.ids 0) u.now "read" "context" (StorePath.mk ns key).resource
          actor.role)) u.outside :=
    congrArg (fun x => x.2.outside) (record_apply env _ u)
  dsimp only
  rw [hlog]
  rfl

/-- The second store is the first one, but a key may have another value, or have one in only one of
them. -/
structure DiffersAt (ns key : String) (s t : Store σ) : Prop where
  rest : t = { s with data := t.data }
  spaces : ∀ ns', ns' ≠ ns → t.data.space? ns' = s.data.space? ns'
  space : (t.data.space? ns).isSome = (s.data.space? ns).isSome
  values : ∀ key', key' ≠ key → t.data.value? ns key' = s.data.value? ns key'

namespace DiffersAt
variable {ns' key' : String}

theorem permissions (h : DiffersAt ns key s t) : t.permissions = s.permissions := by rw [h.rest]

theorem value? (h : DiffersAt ns key s t) (hne : ¬(ns' = ns ∧ key' = key)) :
    t.data.value? ns' key' = s.data.value? ns' key' := by
  by_cases hns : ns' = ns
  · subst hns
    exact h.values key' fun hkey => hne ⟨rfl, hkey⟩
  · exact congrArg (fun space : Option (Table Json) => space.bind fun values => values.get? key')
      (h.spaces ns' hns)

/-- A value is put in the place of another one. -/
theorem write (h : (s.data.space? ns).isSome) (key : String) (v : Json) :
    DiffersAt ns key s (s.mapData (·.write s.now ns key v)) where
  rest := rfl
  spaces ns' hns := Table.get?_insert_of_ne _ hns _
  space := by
    rw [h]
    exact congrArg Option.isSome (Table.get?_insert_self _ _ _)
  values key' hkey := StoreData.value?_write (fun hsame => hkey hsame.2) v

theorem readPayload (h : DiffersAt ns key s t)
    (hread : ¬actor.May s.permissions (StorePath.mk ns key).resource .read)
    (operation ns' key' : String) (held : Bytes → α)
    (referred : ObjectStore σ → StorePath → Attempt σ ObjectError α) :
    (readPayload env actor operation ns' key' held referred t).1 =
      (Store.readPayload env actor operation ns' key' held referred s).1 := by
  by_cases hmay : actor.May s.permissions (StorePath.mk ns' key').resource .read
  · have hvalue : t.data.value? ns' key' = s.data.value? ns' key' := by
      apply h.value?
      rintro ⟨rfl, rfl⟩
      exact hread hmay
    have hnow : t.now = s.now := by rw [h.rest]
    have hids : t.ids = s.ids := by rw [h.rest]
    have houtside : t.outside = s.outside := by rw [h.rest]
    rw [readPayload_of_may hmay, readPayload_of_may (h.permissions.symm ▸ hmay), hvalue, hnow,
      hids, houtside]
  · rw [readPayload_of_not_may hmay, readPayload_of_not_may (h.permissions.symm ▸ hmay)]

end DiffersAt
end Store

/-- Operations with the same results have the same answers. -/
theorem StoreCall.answer_congr {a : StoreAction σ α} {f : α → StoreAnswer} {s t : Store σ}
    (h : (a t).1 = (a s).1) :
    ((a >>= fun v => pure (f v)) t).1 = ((a >>= fun v => pure (f v)) s).1 := by
  rw [answer_eq, answer_eq, h]

theorem StoreCall.readSpace_answer {env : Environment σ} {actor : Actor} {s : Store σ}
    {ns : String} (h : actor.May s.permissions (spaceResource ns) .read) :
    ((StoreCall.readSpace ns).perform env actor s).1 = .ok (.values (s.data.space? ns)) := by
  rw [StoreCall.perform, StoreCall.answer_eq, Store.readSpace_result, Store.authorize_of_may h]
  rfl

theorem StoreCall.merge_answer {env : Environment σ} {actor : Actor} {s : Store σ}
    {ns : String} {values : Table Json} (strategy : MergeStrategy)
    (h : ∀ key ∈ values.keys, actor.May s.permissions (StorePath.mk ns key).resource .write) :
    ((StoreCall.merge ns values strategy).perform env actor s).1 =
      .ok (.conflicts (s.data.merge s.now ns values strategy).conflicts) := by
  have hask : ∀ resource ∈ values.keys.map fun key => (StorePath.mk ns key).resource,
      actor.May s.permissions resource .write :=
    List.forall_mem_map.mpr h
  rw [StoreCall.perform, StoreCall.answer_eq, Store.merge_result, Store.authorizeAll_of_may hask]
  rfl

def StoreCall.answersValues : StoreCall → Bool
  | .read _ _ | .readSpace _ | .merge _ _ _ | .loadPayload _ _ | .openPayload _ _ => true
  | _ => false

open Store in
/-- A call may answer values of a key although it is not about reading this key: those of a whole
namespace, if the namespace may be read, and those that gave way in a merge, if all keys that are
merged may be written and the strategy tells the values in the two stores apart. -/
inductive StoreCall.Shows (actor : Actor) (ns key : String) (s t : Store σ) : StoreCall → Prop
  | space : actor.May s.permissions (spaceResource ns) .read →
      Shows actor ns key s t (.readSpace ns)
  | conflicts {values strategy} : key ∈ values.keys →
      (∀ key' ∈ values.keys, actor.May s.permissions (StorePath.mk ns key').resource .write) →
      ¬strategy.Blurs (s.data.value? ns key) (t.data.value? ns key) →
      Shows actor ns key s t (.merge ns values strategy)

/-- Two answers are the same up to what they tell of a key. -/
inductive StoreAnswer.Alike (key : String) : StoreAnswer → StoreAnswer → Prop
  | values {u v : Table Json} : (∀ key', key' ≠ key → v.get? key' = u.get? key') →
      Alike key (.values (some u)) (.values (some v))
  | conflicts {u v : Table Json} : (∀ key', key' ≠ key → v.get? key' = u.get? key') →
      Alike key (.conflicts u) (.conflicts v)

namespace Store
variable {env : Environment σ} {actor : Actor} {s t : Store σ} {ns key : String}

namespace DiffersAt

theorem read (h : DiffersAt ns key s t)
    (hread : ¬actor.May s.permissions (StorePath.mk ns key).resource .read) (ns' key' : String) :
    (Store.read env actor ns' key' t).1 = (Store.read env actor ns' key' s).1 := by
  rw [read_result, read_result, authorize_congr h.permissions]
  by_cases hmay : actor.May s.permissions (StorePath.mk ns' key').resource .read
  · rw [h.value?]
    rintro ⟨rfl, rfl⟩
    exact hread hmay
  · rw [authorize_of_not_may hmay]
    rfl

theorem readSpace (h : DiffersAt ns key s t) (ns' : String) :
    let call := StoreCall.readSpace ns'
    (call.perform env actor t).1 = (call.perform env actor s).1 ∨
      call.Shows actor ns key s t ∧ ∃ a b, (call.perform env actor s).1 = .ok a ∧
        (call.perform env actor t).1 = .ok b ∧ a.Alike key b := by
  intro call
  have hresult (u : Store σ) (hu : u.permissions = s.permissions) :
      (call.perform env actor u).1 =
        ((authorize env actor "read" (spaceResource ns') .read s).1.map
          fun _ => u.data.space? ns').map .values := by
    rw [← authorize_congr hu, ← readSpace_result]
    exact StoreCall.answer_eq _ _ u
  rw [hresult s rfl, hresult t h.permissions]
  by_cases hns : ns' = ns
  · subst hns
    by_cases hmay : actor.May s.permissions (spaceResource ns') .read
    · rw [authorize_of_may hmay]
      have hspace := h.space
      cases hu : s.data.space? ns' with
      | none =>
        have hv : t.data.space? ns' = none := by simpa [hu] using hspace
        rw [hv]
        exact .inl rfl
      | some u =>
        rw [hu] at hspace
        obtain ⟨v, hv⟩ := Option.isSome_iff_exists.mp hspace
        rw [hv]
        refine .inr ⟨.space hmay, _, _, rfl, rfl, .values fun key' hne => ?_⟩
        have hvalue := h.values key' hne
        rw [StoreData.value?_of_space hu, StoreData.value?_of_space hv] at hvalue
        exact hvalue
    · rw [authorize_of_not_may hmay]
      exact .inl rfl
  · rw [h.spaces ns' hns]
    exact .inl rfl

theorem blurs (h : DiffersAt ns key s t) {values : Table Json} {strategy : MergeStrategy}
    {ns' : String} (hblurs : ns' = ns → key ∈ values.keys →
      strategy.Blurs (s.data.value? ns key) (t.data.value? ns key)) :
    (t.data.merge t.now ns' values strategy).conflicts =
      (s.data.merge s.now ns' values strategy).conflicts := by
  refine (StoreData.merge_conflicts_congr fun key' hkey' => ?_).symm
  by_cases hsame : ns' = ns ∧ key' = key
  · obtain ⟨rfl, rfl⟩ := hsame
    exact hblurs rfl hkey'
  · exact .inl (h.value? hsame).symm

theorem merge (h : DiffersAt ns key s t) (ns' : String) (values : Table Json)
    (strategy : MergeStrategy) :
    let call := StoreCall.merge ns' values strategy
    (call.perform env actor t).1 = (call.perform env actor s).1 ∨
      call.Shows actor ns key s t ∧ ∃ a b, (call.perform env actor s).1 = .ok a ∧
        (call.perform env actor t).1 = .ok b ∧ a.Alike key b := by
  intro call
  have hresult (u : Store σ) (hu : u.permissions = s.permissions) :
      (call.perform env actor u).1 =
        ((authorizeAll env actor "merge" .write
          (values.keys.map fun key => (StorePath.mk ns' key).resource) s).1.map
          fun _ => (u.data.merge u.now ns' values strategy).conflicts).map .conflicts := by
    rw [← authorizeAll_congr hu, ← merge_result]
    exact StoreCall.answer_eq _ _ u
  rw [hresult s rfl, hresult t h.permissions]
  cases hask : (authorizeAll env actor "merge" .write
      (values.keys.map fun key => (StorePath.mk ns' key).resource) s).1 with
  | error e => exact .inl rfl
  | ok _ =>
    have hmay (key' : String) (hkey' : key' ∈ values.keys) :=
      may_of_authorizeAll hask _ (List.mem_map_of_mem hkey')
    by_cases hshows : ns' = ns ∧ key ∈ values.keys ∧
        ¬strategy.Blurs (s.data.value? ns key) (t.data.value? ns key)
    · obtain ⟨rfl, hkey, hblurs⟩ := hshows
      refine .inr ⟨.conflicts hkey hmay hblurs, _, _, rfl, rfl, .conflicts fun key' hne => ?_⟩
      exact StoreData.merge_conflicts (.inl (h.values key' hne)) values
    · rw [h.blurs fun hns hkey => by_contra fun hblurs => hshows ⟨hns, hkey, hblurs⟩]
      exact .inl rfl

end DiffersAt
end Store

def Policy.allButReading (pattern : String) : List Policy :=
  [⟨"*", ".*", [.any], .allow⟩, ⟨"*", pattern, [.read], .deny⟩]

open Store in
/-- What an actor is answered does not depend on the value of a key that it may not read, with two
exceptions. If it may read the namespace as a whole, it is answered all values of the namespace; if
it may write the key, a merge answers the value that gave way. Then the answers still tell the same
of all other keys. -/
theorem keys_confidential {env : Environment σ} {actor : Actor} (hb : actor.bypass = false)
    {s t : Store σ} {ns key : String} (h : DiffersAt ns key s t)
    (hread : s.permissions.allows actor.role (StorePath.mk ns key).resource .read = false)
    {call : StoreCall} (hcall : call.answersValues = true) :
    (call.perform env actor t).1 = (call.perform env actor s).1 ∨
      call.Shows actor ns key s t ∧ ∃ a b, (call.perform env actor s).1 = .ok a ∧
        (call.perform env actor t).1 = .ok b ∧ a.Alike key b := by
  have hmay : ¬actor.May s.permissions (StorePath.mk ns key).resource .read := by
    simp [Actor.May, hb, hread]
  cases call with
  | read ns' key' => exact .inl (StoreCall.answer_congr (h.read hmay ns' key'))
  | readSpace ns' => exact h.readSpace ns'
  | merge ns' values strategy => exact h.merge ns' values strategy
  | loadPayload ns' key' =>
    exact .inl (StoreCall.answer_congr (h.readPayload hmay _ ns' key' _ _))
  | openPayload ns' key' =>
    exact .inl (StoreCall.answer_congr (h.readPayload hmay _ ns' key' _ _))
  | _ => cases hcall

open Store in
/-- Looking at the namespace and overwriting the key show a value that may not be read. -/
theorem keys_shown :
    let s := Store.holding (Policy.allButReading "a\\.k") "a" "k" .null
    let t := s.mapData (·.write s.now "a" "k" (.bool true))
    let space : StoreCall := .readSpace "a"
    let merge : StoreCall := .merge "a" (.singleton "k" .null) .overwrite
    s.permissions.enabled = true ∧ s.permissions.allows "r" "a.k" .read = false ∧
      DiffersAt "a" "k" s t ∧
      (space.perform .inMemory (.ofRole "r") s).1 ≠ (space.perform .inMemory (.ofRole "r") t).1 ∧
      (merge.perform .inMemory (.ofRole "r") s).1 ≠
        (merge.perform .inMemory (.ofRole "r") t).1 := by
  have hs : let s := Store.holding (Policy.allButReading "a\\.k") "a" "k" .null
      s.permissions.enabled = true ∧ s.permissions.allows "r" "a.k" .read = false ∧
        s.permissions.allows "r" "a.*" .read = true ∧
        s.permissions.allows "r" "a.k" .write = true ∧
        s.data = StoreData.empty.write default "a" "k" .null := by
    refine ⟨by decide +kernel, ?_, ?_, ?_, rfl⟩
    all_goals
      rw [Store.holding_permissions]
      cbv
  dsimp only at hs ⊢
  generalize Store.holding (Policy.allButReading "a\\.k") "a" "k" .null = s at hs ⊢
  obtain ⟨henabled, hread, hspace, hkey, hdata⟩ := hs
  have hspaces (d : StoreData) : ((StoreCall.readSpace "a").perform .inMemory (.ofRole "r")
      { s with data := d }).1 = .ok (.values (d.space? "a")) :=
    StoreCall.readSpace_answer (.inr hspace)
  have hmerges (d : StoreData) : ((StoreCall.merge "a" (.singleton "k" .null) .overwrite).perform
      .inMemory (.ofRole "r") { s with data := d }).1 =
      .ok (.conflicts (d.merge s.now "a" (.singleton "k" .null) .overwrite).conflicts) := by
    refine StoreCall.merge_answer _ fun key hmem => .inr ?_
    obtain rfl := List.mem_singleton.mp hmem
    exact hkey
  have hheld : (s.data.space? "a").isSome = true := by
    rw [hdata]
    rfl
  refine ⟨henabled, hread, .write hheld "k" _, ?_, ?_⟩
  · rw [hspaces s.data, mapData, hspaces, hdata]
    intro h
    cases h
  · rw [hmerges s.data, mapData, hmerges, hdata]
    intro h
    cases h

open Store in
/-- A merge that keeps values does not show one that may not be read. -/
theorem keys_confidential_keep :
    let s := Store.holding (Policy.allButReading "a\\.k") "a" "k" .null
    let t := s.mapData (·.write s.now "a" "k" (.bool true))
    let merge : StoreCall := .merge "a" (.singleton "k" (.nat 1)) .keep
    s.permissions.allows "r" "a.k" .read = false ∧ DiffersAt "a" "k" s t ∧
      (merge.perform .inMemory (.ofRole "r") t).1 =
        (merge.perform .inMemory (.ofRole "r") s).1 ∧
      (merge.perform .inMemory (.ofRole "r") s).1 =
        .ok (.conflicts (.singleton "k" (.nat 1))) := by
  have hs : let s := Store.holding (Policy.allButReading "a\\.k") "a" "k" .null
      s.permissions.allows "r" "a.k" .read = false ∧
        s.permissions.allows "r" "a.k" .write = true ∧
        s.data = StoreData.empty.write default "a" "k" .null := by
    refine ⟨?_, ?_, rfl⟩
    all_goals
      rw [Store.holding_permissions]
      cbv
  dsimp only at hs ⊢
  generalize Store.holding _ "a" "k" _ = s at hs ⊢
  obtain ⟨hread, hkey, hdata⟩ := hs
  have hspace : (s.data.space? "a").isSome = true := by
    rw [hdata]
    rfl
  have hwrite : ∀ key ∈ (Table.singleton "k" (Json.nat 1)).keys,
      (Actor.ofRole "r").May s.permissions (StorePath.mk "a" key).resource .write := by
    intro key hmem
    obtain rfl := List.mem_singleton.mp hmem
    exact .inr hkey
  have hanswer : ((StoreCall.merge "a" (.singleton "k" (.nat 1)) .keep).perform .inMemory
      (.ofRole "r") s).1 = .ok (.conflicts (.singleton "k" (.nat 1))) := by
    rw [StoreCall.merge_answer _ hwrite, hdata]
    rfl
  have hdiffers := DiffersAt.write hspace "k" (.bool true)
  have hbypass : (Actor.ofRole "r").bypass = false := rfl
  refine ⟨hread, hdiffers, ?_, hanswer⟩
  rcases keys_confidential hbypass hdiffers hread
    (by rfl : (StoreCall.merge "a" (.singleton "k" (.nat 1)) .keep).answersValues = true)
    with hsame | ⟨hshows, -⟩
  · exact hsame
  · cases hshows with
    | conflicts _ _ hblurs =>
      refine absurd (.inr ⟨rfl, ?_⟩) hblurs
      rw [mapData, StoreData.value?_write_self, hdata, StoreData.value?_write_self]
      rfl

end Workflow
