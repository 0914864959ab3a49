import Workflow.Proofs.Store.Objects
import Workflow.Proofs.Store.Permission

/-!
# What calls that fail leave

A call that fails takes no snapshot and writes no value. Reading a payload is looking at a value
first, which counts even if the value turns out to describe no payload. Deleting is removing values
first, which is done by the time that their objects cannot be deleted; all other values and what is
known of their use stay.
-/
namespace Workflow
open Attempt
variable {σ : Type}

namespace StoreData

def use? (d : StoreData) (ns key : String) : Option KeyMetrics :=
  (d.metrics.get? ns).bind fun m => m.keys.get? key

/-- Two data hold the same, and have it used the same, beside a key or a namespace. -/
structure Beside (ns : String) (key : Option String) (d d' : StoreData) : Prop where
  values : ∀ ns' key', ¬Within ns key ns' key' → d'.value? ns' key' = d.value? ns' key'
  uses : ∀ ns' key', ¬Within ns key ns' key' → d'.use? ns' key' = d.use? ns' key'
  spaces : ∀ ns', ns' ≠ ns →
    d'.space? ns' = d.space? ns' ∧ d'.metrics.get? ns' = d.metrics.get? ns'

theorem Beside.refl (ns : String) (key : Option String) (d : StoreData) : d.Beside ns key d :=
  ⟨fun _ _ _ => rfl, fun _ _ _ => rfl, fun _ _ => ⟨rfl, rfl⟩⟩

theorem removeSpace_beside (d : StoreData) (ns : String) :
    Beside ns none d (d.removeSpace ns) where
  values ns' key' h := (value?_remove h : (d.remove ns none).value? ns' key' = _)
  uses ns' key' h := by
    have hns : ns' ≠ ns := by
      intro hns
      apply h
      exact ⟨hns, fun _ hk => nomatch hk⟩
    simp [use?, removeSpace, Table.get?_erase, hns]
  spaces ns' hns := by simp [space?, removeSpace, Table.get?_erase, hns]

theorem removeKey_beside (d : StoreData) (ns key : String) :
    Beside ns (some key) d (d.removeKey ns key) := by
  have hvalues : ∀ ns' key', ¬Within ns (some key) ns' key' →
      (d.removeKey ns key).value? ns' key' = d.value? ns' key' :=
    fun ns' key' h => (value?_remove h : (d.remove ns (some key)).value? ns' key' = _)
  have hspace (ns' : String) (hns : ns' ≠ ns) :
      (d.values.remove ns (some key)).get? ns' = d.values.get? ns' := by
    unfold Values.remove
    cases d.values.get? ns with
    | none => rfl
    | some t => exact Table.get?_insert_of_ne _ hns _
  revert hvalues
  unfold removeKey
  split
  · intro _
    exact .refl ns (some key) d
  · intro hvalues
    exact ⟨hvalues, fun _ _ _ => rfl, fun ns' hns => ⟨hspace ns' hns, rfl⟩⟩
  · rename_i m _ hm
    intro hvalues
    constructor
    · exact hvalues
    · intro ns' key' h
      by_cases hns : ns' = ns
      · have hkey : key' ≠ key := by
          intro hkey
          apply h
          exact ⟨hns, fun k hk => hkey.trans (Option.some.inj hk)⟩
        simp [use?, hns, hm, SpaceMetrics.forget, Table.get?_erase, hkey]
      · simp [use?, Table.get?_insert, hns]
    · intro ns' hns
      exact ⟨hspace ns' hns, Table.get?_insert_of_ne _ hns _⟩

theorem remove_beside (d : StoreData) (ns : String) (key : Option String) :
    Beside ns key d (d.remove ns key) := by
  cases key with
  | none => exact d.removeSpace_beside ns
  | some key => exact d.removeKey_beside ns key

end StoreData

/-- What the data are after a call that failed with an error. Unless that was refused, a payload
that could not be read has been looked at, and what was to be deleted is gone, only that its objects
could not be deleted. -/
def StoreCall.Leaves (e : StoreError) (now : Instant) (d d' : StoreData) : StoreCall → Prop
  | .loadPayload ns key | .openPayload ns key =>
    d' = (if e.isRefusal then d else d.look now ns (some key)) ∧ d'.values = d.values
  | .delete ns key =>
    d' = (if e.isRefusal then d else d.remove ns key) ∧ (e.isRefusal = false → e.OfObjects) ∧
      d.Beside ns key d'
  | _ => d' = d

theorem StoreError.OfObjects.isRefusal {e : StoreError} (h : e.OfObjects) :
    e.isRefusal = false := by
  obtain rfl | ⟨cause, rfl⟩ := h <;> rfl

namespace StoreCall
variable {env : Environment σ} {actor : Actor} {call : StoreCall} {s t : Store σ} {e : StoreError}
  {ns key : String}

theorem payload_leaves (hcall : call = .loadPayload ns key ∨ call = .openPayload ns key)
    (h : call.perform env actor s = (.error e, t)) :
    t.history = s.history ∧
      t.data = (if e.isRefusal then s.data else s.data.look s.now ns (some key)) ∧
      t.data.values = s.data.values := by
  obtain ⟨cause, he, hn⟩ | ⟨u, x, hu, -, hn⟩ := payload_cases hcall h
  · cases he
    exact ⟨hn.history, hn.data, congrArg StoreData.values hn.data⟩
  · have hg := call.perform_guarded env.keeps_nothing actor s
    rw [h] at hg
    cases hg with
    | refused hd =>
      obtain ⟨entry, x, -, -, ht⟩ := hd
      rw [ht]
      exact ⟨rfl, rfl, rfl⟩
    | passed hr _ =>
      have hdata := hn.data.trans hu.data
      rw [hr e rfl]
      refine ⟨hn.history.trans hu.history, hdata, ?_⟩
      rw [hdata]
      exact s.data.values_look s.now ns (some key)

theorem delete_leaves {key : Option String}
    (h : (StoreCall.delete ns key).perform env actor s = (.error e, t)) :
    t.history = s.history ∧ (StoreCall.delete ns key).Leaves e s.now s.data t.data := by
  obtain ⟨answer, hanswer, he⟩ := answer_cases h
  obtain ⟨cause, rfl, hn⟩ | ⟨u, found, hn, hd, rfl⟩ := Store.delete_cases hanswer
  · cases he
    exact ⟨hn.history, hn.data, nofun, hn.data ▸ .refl ns key s.data⟩
  · cases found with
    | ok => cases he
    | error cause =>
      cases he
      have hobjects : e.OfObjects := by
        apply (Store.dropObjects_elsewhere env _).fails u
        rw [hd]
      have helse := Store.dropped_elsewhere hd
      have hdata : t.data = s.data.remove ns key := helse.data.trans hn.data
      refine ⟨helse.history.trans hn.history, ?_, fun _ => hobjects, ?_⟩
      · rw [hdata, hobjects.isRefusal]
        rfl
      · rw [hdata]
        exact s.data.remove_beside ns key

/-- Other calls that fail leave the data as they were. -/
theorem ends_same (h : call.Ends env actor s (.error e) t)
    (hpayload : ∀ ns key, call ≠ .loadPayload ns key ∧ call ≠ .openPayload ns key)
    (hdelete : ∀ ns key, call ≠ .delete ns key) : t.history = s.history ∧ t.data = s.data := by
  cases h with
  | failed hn => exact ⟨hn.history, hn.data⟩
  | undeleted => exact absurd rfl (hdelete _ _)
  | unwritten hw hn =>
    have hwrites := Store.writePayload_cases hw
    exact ⟨hn.history.trans hwrites.history, hn.data.trans hwrites.data⟩
  | payload hc =>
    rcases hc with rfl | rfl
    · exact absurd rfl (hpayload _ _).1
    · exact absurd rfl (hpayload _ _).2
  | unlisted hc hb hl hn =>
    have hspaces := Store.storedSpaces_elsewhere hl
    exact ⟨hn.history.trans hspaces.history, hn.data.trans hspaces.data⟩

end StoreCall

/-- A call that fails takes no snapshot, and leaves the data as they were; only that a payload was
looked at counts, and what was to be deleted is gone although its objects could not be deleted. -/
theorem failed_unchanged {env : Environment σ} {actor : Actor} {call : StoreCall} {s t : Store σ}
    {e : StoreError} (h : call.perform env actor s = (.error e, t)) :
    t.history = s.history ∧ call.Leaves e s.now s.data t.data := by
  cases call with
  | loadPayload ns key => exact StoreCall.payload_leaves (.inl rfl) h
  | openPayload ns key => exact StoreCall.payload_leaves (.inr rfl) h
  | delete ns key => exact StoreCall.delete_leaves h
  | _ =>
    apply StoreCall.ends_same (StoreCall.perform_ends h)
    · exact fun _ _ => ⟨nofun, nofun⟩
    · exact fun _ _ => nofun

/-- Appending to what is not a list fails and changes nothing. -/
theorem failed_unchanged_append :
    let s := Store.holding [] "a" "k" .null
    ∃ e t, (StoreCall.append "a" "k" .null).perform .inMemory .system s = (.error e, t) ∧
      t.history = s.history ∧ t.data = s.data := by
  have hr : ((StoreCall.append "a" "k" .null).perform .inMemory .system
      (Store.holding [] "a" "k" .null)).1 = .error (.notAList ⟨"a", "k"⟩) := rfl
  generalize Store.holding [] "a" "k" .null = s at hr
  rcases h : (StoreCall.append "a" "k" .null).perform .inMemory .system s with ⟨r, t⟩
  obtain rfl : r = _ := (congrArg Prod.fst h).symm.trans hr
  exact ⟨_, t, h, failed_unchanged h⟩

/-- A look at what is no payload counts; and a value that refers to an object is gone, although
there is no place for objects to delete it from. -/
theorem failed_changed :
    let s := Store.holding [] "a" "k" .null
    let t := (StoreCall.loadPayload "a" "k").perform .inMemory .system s
    let forged := (Descriptor.ofReference ⟨"b", "p"⟩ default).toJson
    let u := Store.holding [] "b" "p" forged
    let v := (StoreCall.delete "b" (some "p")).perform .inMemory .system u
    (∃ e, t.1 = .error e) ∧ s.data.use? "a" "k" = some ⟨1, 4, s.now, s.now, s.now⟩ ∧
      t.2.data.use? "a" "k" = some ⟨2, 4, s.now, s.now, s.now⟩ ∧
      v.1 = .error (.unavailable .objects) ∧ u.data.value? "b" "p" = some forged ∧
      v.2.data.value? "b" "p" = none :=
  ⟨⟨.badDescriptor (.unmarked ⟨"a", "k"⟩), rfl⟩, rfl, rfl, rfl, rfl, rfl⟩

end Workflow
