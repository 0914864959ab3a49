import Workflow.Proofs.Binary.Descriptor
import Workflow.Proofs.Storage.Objects
import Workflow.Proofs.Store.Merge
import Workflow.Proofs.Store.Ordered

/-!
# References to objects

Values may refer to objects. What concerns an object is changed only by a call that writes a payload
there, or by one that takes away a reference to it, since this is when objects are deleted.
-/
namespace Workflow
open Attempt
variable {σ α β : Type}

/-- The value of a key refers to an object. -/
def StoreData.Refers (d : StoreData) (ns key : String) (path : StorePath) : Prop :=
  (d.value? ns key).bind Descriptor.referenceOf = some path

namespace StoreCall

/-- The values of a merge stand in key order, and the numbers of metadata are words. -/
def Formed : StoreCall → Prop
  | .merge _ values _ => values.Sorted
  | .savePayload _ _ _ metadata => metadata.Sized
  | _ => True

/-- Whether a call releases the objects of values that it replaces or removes. Restoring a snapshot
does not, and nor does loading, so that an object outlasts the values that refer to it. -/
def releases : StoreCall → Bool
  | .restore _ => false
  | .load _ => false
  | _ => true

/-- The place where a call has written an object. -/
def saved? : StoreCall → Except StoreError StoreAnswer → Option StorePath
  | .savePayload ns key _ _, .ok (.descriptor d) =>
    if d.location = .referenced then some ⟨ns, key⟩ else none
  | _, _ => none

end StoreCall

/-- What is looked at concerns a place of objects, and neither the backend nor the sink. -/
structure Environment.OnlyAt (env : Environment σ) (P : StorePath → Prop) (view : σ → β) :
    Prop where
  objects : ∀ o ∈ env.objects, o.OnlyAt P view
  backend : ∀ b ∈ env.backend, b.Spares view
  sink : ∀ k ∈ env.sink, k.Spares view

def Environment.withObjects (threshold : Nat) : Environment ObjectStore.Objects :=
  ⟨none, some .memory, none, threshold⟩

namespace Store
variable {env : Environment σ} {actor : Actor} {call : StoreCall} {s t : Store σ}
  {r : Except StoreError StoreAnswer} {P : StorePath → Prop} {view : σ → β}

theorem dropObjects_view (ho : ∀ o ∈ env.objects, o.OnlyAt P view) {paths : List StorePath}
    (h : ∀ path ∈ paths, ¬P path) (s : Store σ) :
    view (dropObjects env paths s).2.outside = view s.outside := by
  have deleting (o : ObjectStore σ) (ho : o.OnlyAt P view) (paths : List StorePath)
      (h : ∀ path ∈ paths, ¬P path) (s : Store σ) :
      view (deleteObjects o paths s).2.outside = view s.outside := by
    induction paths generalizing s with
    | nil => rfl
    | cons path paths ih =>
      have hdelete := ho.delete path.ns path.key s.outside (h path List.mem_cons_self)
      rw [deleteObjects, bind_apply, tryOutside_apply]
      cases (o.delete path.ns path.key s.outside).1 with
      | error e => exact hdelete
      | ok found =>
        have hrest := ih (fun p hp => h p (List.mem_cons_of_mem path hp))
        exact (hrest _).trans hdelete
  unfold dropObjects objects
  split
  · cases ho' : env.objects with
    | none => rfl
    | some o => exact deleting o (ho o ho') paths h s
  · rfl

theorem release_view (ho : ∀ o ∈ env.objects, o.OnlyAt P view) {old : Option Json} {new : Json}
    (h : ∀ path, old.bind Descriptor.referenceOf = some path →
      Descriptor.referenceOf new ≠ some path → ¬P path) (s : Store σ) :
    view (release env old new s).2.outside = view s.outside := by
  obtain ⟨-, hs⟩ | ⟨path, hold, hnew, hs⟩ := release_cases env old new s
  · rw [hs]
  · rw [hs]
    apply dropObjects_view ho
    intro p hp
    rw [List.mem_singleton.mp hp]
    exact h path hold hnew

theorem releaseAll_view (ho : ∀ o ∈ env.objects, o.OnlyAt P view) {conflicts : Table Json}
    {written : List (String × Json)}
    (h : ∀ e ∈ written, ∀ path, (conflicts.get? e.1).bind Descriptor.referenceOf = some path →
      Descriptor.referenceOf e.2 ≠ some path → ¬P path) (s : Store σ) :
    view (releaseAll env conflicts written s).2.outside = view s.outside := by
  induction written generalizing s with
  | nil => rfl
  | cons e written ih =>
    have hfirst := release_view ho (h e List.mem_cons_self) s
    have hrest := ih fun f hf => h f (List.mem_cons_of_mem e hf)
    exact (hrest _).trans hfirst

theorem overwrite_view (ho : ∀ o ∈ env.objects, o.OnlyAt P view) {ns key : String} {v : Json}
    (h : ∀ path, P path → s.data.Refers ns key path →
      (s.overwrite env ns key v).data.Refers ns key path) :
    view (s.overwrite env ns key v).outside = view s.outside := by
  refine (release_view ho ?_ _).trans rfl
  intro path hold hnew hp
  have hafter := h path hp hold
  rw [overwrite_data, StoreData.Refers, StoreData.value?_write_self] at hafter
  exact hnew hafter

theorem mergeIn_view (ho : ∀ o ∈ env.objects, o.OnlyAt P view) {ns : String} {values : Table Json}
    (hv : values.Sorted) {strategy : MergeStrategy}
    (h : ∀ key path, P path → s.data.Refers ns key path →
      (s.mergeIn env ns values strategy).data.Refers ns key path) :
    view (s.mergeIn env ns values strategy).outside = view s.outside := by
  have hmerging := s.data.merge_merging s.now ns hv strategy
  refine (releaseAll_view ho ?_ _).trans rfl
  intro e he path hold hnew hp
  obtain ⟨hvalue, hprior⟩ := hmerging.written e he
  rw [hprior] at hold
  have hafter := h e.1 path hp hold
  rw [mergeIn_data, StoreData.Refers, hvalue] at hafter
  exact hnew hafter

theorem referencesIn_key (key : String) (found : Option Json) :
    referencesIn (some key) found = (found.bind Descriptor.referenceOf).toList := by
  cases found with
  | none => rfl
  | some v => cases v <;> rfl

theorem mem_referencesIn {d : StoreData} {ns : String} {key : Option String} {path : StorePath}
    (hd : key = none → d.Ordered) (h : path ∈ referencesIn key (d.values.find ns key)) :
    ∃ key', (∀ k ∈ key, key' = k) ∧ d.Refers ns key' path := by
  cases key with
  | some key =>
    rw [referencesIn_key, Option.mem_toList] at h
    exact ⟨key, fun k hk => Option.some.inj hk, h⟩
  | none =>
    cases ht : d.values.get? ns with
    | none => simp [Values.find, ht, referencesIn] at h
    | some t =>
      simp only [Values.find, ht, Option.map_some, referencesIn, Table.values,
        List.mem_filterMap, List.mem_map] at h
      obtain ⟨v, ⟨e, he, rfl⟩, hpath⟩ := h
      have hvalue : d.value? ns e.1 = some e.2 := by
        rw [StoreData.value?, Values.value?, ht]
        exact (hd rfl ns t ht).get?_of_mem he
      refine ⟨e.1, fun k hk => (Option.not_mem_none k hk).elim, ?_⟩
      rw [StoreData.Refers, hvalue]
      exact hpath

theorem referencesIn_mem {d : StoreData} {ns : String} {key : Option String} {key' : String}
    {path : StorePath} (h : d.Refers ns key' path) (hkey : ∀ k ∈ key, key' = k) :
    path ∈ referencesIn key (d.values.find ns key) := by
  cases key with
  | some key =>
    obtain rfl := hkey key rfl
    rw [referencesIn_key, Option.mem_toList]
    exact h
  | none =>
    obtain ⟨v, hv, hpath⟩ := Option.bind_eq_some_iff.mp h
    obtain ⟨t, ht, hget⟩ := Option.bind_eq_some_iff.mp hv
    simp only [Values.find, ht, Option.map_some, referencesIn, Table.values,
      List.mem_filterMap, List.mem_map]
    exact ⟨v, ⟨_, Table.mem_of_lookup hget, rfl⟩, hpath⟩

theorem loadAll_view {b : Backend σ} (hb : b.Spares view) {spaces : List String} {n : Nat}
    (h : loadAll b spaces s = (.ok n, t)) : view t.outside = view s.outside := by
  induction spaces generalizing s n with
  | nil =>
    cases h
    rfl
  | cons ns spaces ih =>
    have hspace : view (b.loadSpace ns s.outside).2 = view s.outside := hb.loadSpace ns s.outside
    rw [loadAll, onOutside_bind] at h
    cases hload : (b.loadSpace ns s.outside).1 with
    | none =>
      simp only [hload] at h
      exact (ih h).trans hspace
    | some values =>
      simp only [hload] at h
      rw [modify_bind] at h
      obtain ⟨e, -, he⟩ | ⟨m, v, hrest, h⟩ := bind_cases h
      · cases he
      · cases h
        exact (ih hrest).trans hspace

theorem onOutside_view {a : StateM σ α} (ha : Does (SameView view) a) {x : Except StoreError α}
    (h : onOutside a s = (x, t)) : view t.outside = view s.outside := by
  rw [onOutside_apply] at h
  cases h
  exact ha s.outside

theorem storedSpaces_view {b : Backend σ} (hb : b.Spares view) {ns : Option String}
    {names : List String} (h : storedSpaces b ns s = (.ok names, t)) :
    view t.outside = view s.outside := by
  cases ns with
  | some ns =>
    cases h
    rfl
  | none => exact onOutside_view hb.tryNamespaces h

theorem Writes.spares {ns key : String} {source : Source} {metadata : BinaryMetadata}
    {written : Except StoreError Written} (ho : ∀ o ∈ env.objects, o.OnlyAt P view)
    (h : Writes env ns key source metadata s written t)
    (hsave : ∀ w, written = .ok w → w.descriptor.location = .referenced → ¬P ⟨ns, key⟩) :
    view t.outside = view s.outside := by
  cases h with
  | refused => rfl
  | inline => rfl
  | @referenced head rest o size x _ _ _ hmem hx =>
    have hplace : ¬P ⟨ns, key⟩ := hsave _ rfl rfl
    have hview := (ho o hmem).save ns key (.piece head :: rest) s.outside fun hp => absurd hp hplace
    rwa [hx] at hview
  | @broken o stream cause x _ hmem hx =>
    have hview := (ho o hmem).save ns key stream s.outside fun _ => ⟨cause, by rw [hx]⟩
    rwa [hx] at hview

theorem delete_view (henv : env.OnlyAt P view) {u : Store σ} {ns : String} {key : Option String}
    (hs : key = none → s.data.Ordered) {x : Except StoreError Unit}
    (hn : Noted env actor (s.mapData (·.remove ns key)) u)
    (hd : dropObjects env (referencesIn key (s.data.values.find ns key)) u = (x, t))
    (hkept : ∀ key' path, P path → s.data.Refers ns key' path → t.data.Refers ns key' path) :
    view t.outside = view s.outside := by
  have hpaths : ∀ path ∈ referencesIn key (s.data.values.find ns key), ¬P path := by
    intro path hpath hp
    obtain ⟨key', hkey, hrefers⟩ := mem_referencesIn hs hpath
    have hafter := hkept key' path hp hrefers
    rw [StoreData.Refers, (dropped_elsewhere hd).data, hn.data] at hafter
    have hgone : (s.data.remove ns key).value? ns key' = none := StoreData.value?_remove_self hkey
    simp [mapData, hgone] at hafter
  have hdrop := dropObjects_view henv.objects hpaths u
  rw [hd] at hdrop
  exact hdrop.trans (hn.view henv.sink)

/-- What concerns the object at a place stays as it is in a call that writes no object there and
takes no reference to it away. The order of the data matters only if a namespace is deleted. -/
theorem perform_view_of_ordered (henv : env.OnlyAt P view)
    (hs : ∀ ns, call = .delete ns none → s.data.Ordered) (hcall : call.Formed)
    (h : call.perform env actor s = (r, t)) (hsaved : ∀ path ∈ call.saved? r, ¬P path)
    (hkept : call.releases = true → ∀ ns key path, P path → s.data.Refers ns key path →
      t.data.Refers ns key path) : view t.outside = view s.outside := by
  cases StoreCall.perform_ends h with
  | failed hn => exact hn.view henv.sink
  | kept _ hn => exact hn.view henv.sink
  | @set ns key v _ _ hn =>
    refine (hn.view henv.sink).trans (overwrite_view henv.objects ?_)
    intro path hp hbefore
    rw [← hn.data]
    exact hkept rfl ns key path hp hbefore
  | read hn => exact hn.view henv.sink
  | readSpace hn => exact hn.view henv.sink
  | @delete ns key _ _ hn hd =>
    exact delete_view henv (fun hkey => hs ns (hkey ▸ rfl)) hn hd (hkept rfl _)
  | @undeleted ns key _ _ _ hn hd =>
    exact delete_view henv (fun hkey => hs ns (hkey ▸ rfl)) hn hd (hkept rfl _)
  | contains hn => exact hn.view henv.sink
  | keys => rfl
  | append _ hn => exact hn.view henv.sink
  | @merge ns values strategy _ hn =>
    refine (hn.view henv.sink).trans (mergeIn_view henv.objects hcall ?_)
    intro key path hp hbefore
    rw [← hn.data]
    exact hkept rfl ns key path hp hbefore
  | snapshot hn => exact hn.view henv.sink
  | unknown _ hn => exact hn.view henv.sink
  | restore _ hn => exact hn.view henv.sink
  | unwritten hw hn =>
    refine (hn.view henv.sink).trans ((writePayload_cases hw).spares henv.objects ?_)
    intro w hw
    cases hw
  | @savePayload ns key _ _ w u _ hw hn =>
    have hwritten := writePayload_cases hw
    have hspared : view u.outside = view s.outside := by
      apply hwritten.spares henv.objects
      intro w' hw' hlocation
      cases hw'
      exact hsaved ⟨ns, key⟩ (by simp [StoreCall.saved?, hlocation])
    refine (hn.view henv.sink).trans ((overwrite_view henv.objects ?_).trans hspared)
    intro path hp hbefore
    rw [hwritten.data] at hbefore
    rw [← hn.data]
    exact hkept rfl ns key path hp hbefore
  | @payload _ _ _ _ u x _ _ hu hx hn =>
    have hlook : view x = view u.outside := by
      rcases hx with rfl | ⟨o, ho, path, rfl⟩
      · rfl
      · exact (henv.objects o ho).openSource path.ns path.key u.outside
    exact (hn.view henv.sink).trans (hlook.trans (hu.view henv.sink))
  | unlisted _ hb hl hn =>
    exact (hn.view henv.sink).trans (storedSpaces_view (henv.backend _ hb) hl)
  | save hb hl hsync hn =>
    have hspares := henv.backend _ hb
    exact (hn.view henv.sink).trans
      ((onOutside_view (hspares.syncAll _) hsync).trans (storedSpaces_view hspares hl))
  | load hb hl hload hn =>
    have hspares := henv.backend _ hb
    exact (hn.view henv.sink).trans
      ((loadAll_view hspares hload).trans (storedSpaces_view hspares hl))
  | deleteStored hb hd hn =>
    exact (hn.view henv.sink).trans (onOutside_view ((henv.backend _ hb).tryDelete _ _) hd)

theorem perform_view (henv : env.OnlyAt P view) (hs : s.data.Ordered) (hcall : call.Formed)
    (h : call.perform env actor s = (r, t)) (hsaved : ∀ path ∈ call.saved? r, ¬P path)
    (hkept : call.releases = true → ∀ ns key path, P path → s.data.Refers ns key path →
      t.data.Refers ns key path) : view t.outside = view s.outside :=
  perform_view_of_ordered henv (fun _ _ => hs) hcall h hsaved hkept

end Store
end Workflow
