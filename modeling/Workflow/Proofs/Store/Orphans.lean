import Workflow.Proofs.Store.References

/-!
# No orphaned objects

If objects can always be deleted, then every object is one that a stored value refers to: a payload
is written together with a value that refers to it, and whenever a reference is taken away the
object is deleted, even if it was never this value that brought it there.
-/
namespace Workflow
open Attempt
variable {σ : Type}

/-- Objects are kept in a reliable place, beside the backend and the sink. -/
structure Environment.Tends (env : Environment σ) (o : ObjectStore σ) : Prop where
  objects : env.objects = some o
  reliable : o.Reliable
  backend : ∀ b ∈ env.backend, ∀ path : StorePath, b.Spares (o.contains path.ns path.key)
  sink : ∀ k ∈ env.sink, ∀ path : StorePath, k.Spares (o.contains path.ns path.key)

theorem Environment.Tends.onlyAt {env : Environment σ} {o : ObjectStore σ} (h : env.Tends o)
    (path : StorePath) : env.OnlyAt (· = path) (o.contains path.ns path.key) where
  objects o' ho := by
    obtain rfl : o = o' := Option.some.inj (h.objects.symm.trans ho)
    exact h.reliable.apart path
  backend b hb := h.backend b hb path
  sink k hk := h.sink k hk path

theorem Environment.withObjects_tends (threshold : Nat) :
    (withObjects threshold).Tends .memory where
  objects := rfl
  reliable := ObjectStore.memory_reliable
  backend := nofun
  sink := nofun

namespace Store
variable {env : Environment σ} {actor : Actor} {call : StoreCall} {s t : Store σ}
  {r : Except StoreError StoreAnswer} {o : ObjectStore σ} {path : StorePath}

def Lacks (o : ObjectStore σ) (path : StorePath) (s : Store σ) : Prop :=
  o.contains path.ns path.key s.outside = false

/-- Every object is one that a value refers to. -/
def Tracked (o : ObjectStore σ) (s : Store σ) : Prop :=
  ∀ path : StorePath, o.contains path.ns path.key s.outside = true →
    ∃ ns key, s.data.Refers ns key path

theorem deleteObjects_lacks (ho : o.Reliable) {paths : List StorePath}
    (h : path ∈ paths ∨ Lacks o path s) : Lacks o path (deleteObjects o paths s).2 := by
  induction paths generalizing s with
  | nil => exact h.resolve_left List.not_mem_nil
  | cons p paths ih =>
    obtain ⟨found, hdelete⟩ := ho.deletes p.ns p.key s.outside
    rw [deleteObjects, bind_apply, tryOutside_apply, hdelete]
    apply ih
    by_cases hp : p = path
    · subst hp
      exact .inr (ho.deleted p.ns p.key s.outside)
    · rcases h with h | h
      · exact .inl ((List.mem_cons.mp h).resolve_left fun heq => hp heq.symm)
      · exact .inr (((ho.apart path).delete p.ns p.key s.outside hp).trans h)

theorem dropObjects_lacks (henv : env.Tends o) {paths : List StorePath}
    (h : path ∈ paths ∨ Lacks o path s) : Lacks o path (dropObjects env paths s).2 := by
  have hdrop : dropObjects env paths s = deleteObjects o paths s := by
    unfold dropObjects objects
    rw [henv.objects]
    cases paths <;> rfl
  rw [hdrop]
  exact deleteObjects_lacks henv.reliable h

theorem release_lacks (henv : env.Tends o) {old : Option Json} {new : Json}
    (h : (old.bind Descriptor.referenceOf = some path ∧ Descriptor.referenceOf new ≠ some path) ∨
      Lacks o path s) : Lacks o path (release env old new s).2 := by
  obtain ⟨hsame, hs⟩ | ⟨p, hold, -, hs⟩ := release_cases env old new s
  · rw [hs]
    apply h.resolve_left
    rintro ⟨hold, hnew⟩
    simp [hold, hnew] at hsame
  · rw [hs]
    apply dropObjects_lacks henv
    apply h.imp_left
    rintro ⟨hold', -⟩
    exact List.mem_singleton.mpr (Option.some.inj (hold'.symm.trans hold))

theorem releaseAll_lacks (henv : env.Tends o) {conflicts : Table Json}
    {written : List (String × Json)}
    (h : (∃ e ∈ written, (conflicts.get? e.1).bind Descriptor.referenceOf = some path ∧
      Descriptor.referenceOf e.2 ≠ some path) ∨ Lacks o path s) :
    Lacks o path (releaseAll env conflicts written s).2 := by
  induction written generalizing s with
  | nil =>
    rcases h with ⟨e, he, -⟩ | h
    · cases he
    · exact h
  | cons e written ih =>
    apply ih
    rcases h with ⟨f, hf, hlost⟩ | h
    · rcases List.mem_cons.mp hf with rfl | hf
      · exact .inr (release_lacks henv (.inl hlost))
      · exact .inl ⟨f, hf, hlost⟩
    · exact .inr (release_lacks henv (.inr h))

theorem overwrite_lacks (henv : env.Tends o) {ns key ns' key' : String} {v : Json}
    (hbefore : s.data.Refers ns' key' path)
    (hafter : ¬(s.overwrite env ns key v).data.Refers ns' key' path) :
    Lacks o path (s.overwrite env ns key v) := by
  rw [overwrite_data, StoreData.Refers] at hafter
  by_cases hkey : ns' = ns ∧ key' = key
  · obtain ⟨rfl, rfl⟩ := hkey
    rw [StoreData.value?_write_self] at hafter
    exact release_lacks henv (.inl ⟨hbefore, hafter⟩)
  · rw [StoreData.value?_write hkey] at hafter
    exact absurd hbefore hafter

theorem mergeIn_lacks (henv : env.Tends o) {ns ns' key' : String} {values : Table Json}
    (hv : values.Sorted) {strategy : MergeStrategy} (hbefore : s.data.Refers ns' key' path)
    (hafter : ¬(s.mergeIn env ns values strategy).data.Refers ns' key' path) :
    Lacks o path (s.mergeIn env ns values strategy) := by
  have hmerging := s.data.merge_merging s.now ns hv strategy
  rw [mergeIn_data, StoreData.Refers] at hafter
  by_cases hwritten : ∃ e ∈ (s.data.merge s.now ns values strategy).written, ns' = ns ∧ key' = e.1
  · obtain ⟨e, he, rfl, rfl⟩ := hwritten
    obtain ⟨hvalue, hprior⟩ := hmerging.written e he
    rw [hvalue] at hafter
    apply releaseAll_lacks henv
    exact .inl ⟨e, he, (congrArg (Option.bind · _) hprior).trans hbefore, hafter⟩
  · rw [hmerging.others ns' key' fun e he hkey => hwritten ⟨e, he, hkey⟩] at hafter
    exact absurd hbefore hafter

theorem delete_lacks (henv : env.Tends o) {u : Store σ} {ns ns' key' : String}
    {key : Option String} {x : Except StoreError Unit}
    (hn : Noted env actor (s.mapData (·.remove ns key)) u)
    (hd : dropObjects env (referencesIn key (s.data.values.find ns key)) u = (x, t))
    (hbefore : s.data.Refers ns' key' path) (hafter : ¬t.data.Refers ns' key' path) :
    Lacks o path t := by
  have hdata : t.data = s.data.remove ns key := (dropped_elsewhere hd).data.trans hn.data
  by_cases hwithin : Within ns key ns' key'
  · obtain ⟨rfl, hkey⟩ := hwithin
    have hlacks := dropObjects_lacks henv (s := u) (.inl (referencesIn_mem hbefore hkey))
    rwa [hd] at hlacks
  · rw [hdata, StoreData.Refers, StoreData.value?_remove hwithin] at hafter
    exact absurd hbefore hafter

/-- A call that takes a reference away leaves no object there. -/
theorem perform_lacks (henv : env.Tends o) (hcall : call.Formed) (hreleases : call.releases = true)
    (h : call.perform env actor s = (r, t)) {ns' key' : String}
    (hbefore : s.data.Refers ns' key' path) (hafter : ¬t.data.Refers ns' key' path) :
    Lacks o path t := by
  have noted {u : Store σ} (hn : Noted env actor u t) (hlacks : Lacks o path u) : Lacks o path t :=
    (hn.view fun k hk => henv.sink k hk path).trans hlacks
  have unchanged (hsame : t.data.value? ns' key' = s.data.value? ns' key') : Lacks o path t := by
    rw [StoreData.Refers, hsame] at hafter
    exact absurd hbefore hafter
  have same (hdata : t.data = s.data) : Lacks o path t := unchanged (by rw [hdata])
  cases StoreCall.perform_ends h with
  | failed hn => exact same hn.data
  | kept _ hn => exact same hn.data
  | set hn => exact noted hn (overwrite_lacks henv hbefore (hn.data ▸ hafter))
  | read hn => exact unchanged (by rw [hn.data]; exact StoreData.value?_look _ _ _ _ _ _)
  | readSpace hn => exact unchanged (by rw [hn.data]; exact StoreData.value?_look _ _ _ _ _ _)
  | delete hn hd => exact delete_lacks henv hn hd hbefore hafter
  | undeleted hn hd => exact delete_lacks henv hn hd hbefore hafter
  | contains hn => exact same hn.data
  | keys => exact same rfl
  | @append ns key v items _ hitems hn =>
    have hother : ¬(ns' = ns ∧ key' = key) := by
      rintro ⟨rfl, rfl⟩
      rw [StoreData.Refers] at hbefore
      cases hv : s.data.value? ns' key' with
      | none => simp [hv] at hbefore
      | some old =>
        rw [hv] at hbefore hitems
        cases old with
        | arr _ => simp [Descriptor.referenceOf_arr] at hbefore
        | _ => cases hitems
    exact unchanged (by rw [hn.data]; exact StoreData.value?_write hother _)
  | merge hn => exact noted hn (mergeIn_lacks henv hcall hbefore (hn.data ▸ hafter))
  | snapshot hn => exact same hn.data
  | unknown _ hn => exact same hn.data
  | restore => cases hreleases
  | unwritten hw hn => exact same (hn.data.trans (writePayload_cases hw).data)
  | savePayload hw hn =>
    have hdata := (writePayload_cases hw).data
    exact noted hn (overwrite_lacks henv (hdata ▸ hbefore) (hn.data ▸ hafter))
  | payload _ hu _ hn =>
    exact unchanged (by rw [hn.data, hu.data]; exact StoreData.value?_look _ _ _ _ _ _)
  | unlisted _ _ hl hn => exact same (hn.data.trans (storedSpaces_elsewhere hl).data)
  | save _ hl hsync hn =>
    have hlisted := trans_of Elsewhere (storedSpaces_elsewhere hl) (onOutside_elsewhere hsync)
    exact same (hn.data.trans hlisted.data)
  | load => cases hreleases
  | deleteStored _ hd hn => exact same (hn.data.trans (onOutside_elsewhere hd).data)

/-- A call that writes an object leaves a value that refers to it. -/
theorem saved_refers (hcall : call.Formed) (h : call.perform env actor s = (r, t))
    (hsaved : call.saved? r = some path) : t.data.Refers path.ns path.key path := by
  cases StoreCall.perform_ends h with
  | @savePayload ns key _ metadata w u _ hw hn =>
    rw [hn.data, overwrite_data, StoreData.Refers]
    cases writePayload_cases hw with
    | inline => cases hsaved
    | referenced =>
      obtain rfl : ⟨ns, key⟩ = path := Option.some.inj hsaved
      rw [StoreData.value?_write_self]
      exact Descriptor.referenceOf_ofReference ⟨ns, key⟩ hcall
  | failed => cases call <;> cases hsaved
  | payload hc =>
    rcases hc with rfl | rfl <;> cases hsaved
  | unlisted hc =>
    rcases hc with rfl | rfl <;> cases hsaved
  | _ => cases hsaved

theorem Tracked.perform (henv : env.Tends o) (hs : s.data.Ordered) (htracked : Tracked o s)
    (hcall : call.Formed) (hreleases : call.releases = true)
    (h : call.perform env actor s = (r, t)) : Tracked o t := by
  intro path hcontains
  by_cases hsaved : call.saved? r = some path
  · exact ⟨path.ns, path.key, saved_refers hcall h hsaved⟩
  · have hkept : ∀ ns key, s.data.Refers ns key path → t.data.Refers ns key path := by
      intro ns key hbefore
      by_contra hafter
      have hlacks := perform_lacks henv hcall hreleases h hbefore hafter
      exact Bool.false_ne_true (hlacks.symm.trans hcontains)
    have hview : o.contains path.ns path.key t.outside = o.contains path.ns path.key s.outside := by
      apply perform_view (henv.onlyAt path) hs hcall h
      · rintro p hp rfl
        exact hsaved hp
      · rintro - ns key p rfl hbefore
        exact hkept ns key hbefore
    obtain ⟨ns, key, hbefore⟩ := htracked path (hview ▸ hcontains)
    exact ⟨ns, key, hkept ns key hbefore⟩

end Store

/-- In a run of a fresh store without objects, with calls that release what they replace and remove,
every object is at all times one that the value of some key refers to. -/
theorem objects_referenced {env : Environment σ} {o : ObjectStore σ} (henv : env.Tends o)
    {s t : Store σ} {steps : List (StoreStep σ)} (hs : s.Fresh)
    (hempty : ∀ ns key, o.contains ns key s.outside = false) (h : s.Run env steps t)
    (hcalls : ∀ step ∈ steps, step.call.Formed ∧ step.call.releases = true) {path : StorePath}
    (hcontains : o.contains path.ns path.key t.outside = true) :
    ∃ ns key, t.data.Refers ns key path := by
  have htracked : t.Tracked o := by
    apply h.keeps_ordered (P := Store.Tracked o) _ _ hs.ordered hcalls
    · intro path hpath
      simp [hempty] at hpath
    · rintro step ⟨hcall, hreleases⟩ hordered hbefore
      exact hbefore.perform henv hordered.data hcall hreleases (step.perform_eq env)
    · intro s t ha hbefore path hpath
      rw [ha.outside] at hpath
      rw [ha.data]
      exact hbefore path hpath
  exact htracked path hcontains

/-- Of two pictures one is still there; the other went with the value that referred to it. -/
theorem objects_referenced_dot :
    let calls : List (Actor × StoreCall) := [(.system, .savePayload "a" "k" (.ofBytes [1]) .dot),
      (.system, .savePayload "a" "j" (.ofBytes [2]) .dot), (.system, .set "a" "j" .null .default)]
    let t := (Store.follow (.withObjects 0) (.blank .empty) calls).2
    ObjectStore.memory.contains "a" "j" t.outside = false ∧
      ObjectStore.memory.contains "a" "k" t.outside = true ∧
      ∃ ns key, t.data.Refers ns key ⟨"a", "k"⟩ := by
  intro calls t
  have hcontains : ObjectStore.memory.contains "a" "k" t.outside = true := rfl
  have hcalls : ∀ request ∈ calls, request.2.Formed ∧ request.2.releases = true := by
    simp [calls, StoreCall.Formed, StoreCall.releases, BinaryMetadata.dot_sized]
  refine ⟨rfl, hcontains, ?_⟩
  apply objects_referenced (Environment.withObjects_tends 0) (Store.blank_fresh .empty)
    (fun _ _ => rfl) (Store.follow_run _ _ _)
  · intro step hstep
    exact hcalls _ (Store.mem_follow hstep)
  · exact hcontains

end Workflow
