import Workflow.Proofs.Store.Durable

/-!
# Storage in memory

With a backend in memory nothing fails. What is saved is exactly what the store holds; loading it
into another store lays it over what is there.
-/
namespace Workflow
open Attempt
variable {σ : Type}

/-- Values are stored in memory, in a part that the sink leaves alone. -/
structure Environment.StoresIn (env : Environment σ) (p : Part σ Values) : Prop where
  lawful : p.Lawful
  backend : env.backend = some (Backend.memory.through p)
  sink : ∀ k ∈ env.sink, k.Spares p.get

namespace Environment.StoresIn
open Store
variable {env : Environment σ} {p : Part σ Values} {actor : Actor} {s t : Store σ}

theorem stores (henv : env.StoresIn p) :
    env.Stores (Backend.memory.through p) (fun x => (p.get x).Ordered)
      fun x => (p.get x).contents where
  backend := henv.backend
  honest := Backend.memory_honest.through henv.lawful
  sink k hk e x := by
    have hget : p.get (k.append e x).2 = p.get x := henv.sink k hk e x
    simp only [hget]

theorem listed_all (henv : env.StoresIn p) (x : σ) :
    (listed (Backend.memory.through p) none x).1 = (p.get x).keys ∧
      p.get (listed (Backend.memory.through p) none x).2 = p.get x :=
  ⟨rfl, henv.lawful _ _⟩

/-- Saving by somebody who may do so does not fail. -/
theorem save_true (henv : env.StoresIn p) (hactor : actor.bypass = true) (sc : Option String) :
    ∃ t, (StoreCall.save sc).perform env actor s = (.ok (.flag true), t) := by
  have hmay (resource : String) : actor.May s.permissions resource .read := .inl hactor
  obtain ⟨done, t, h⟩ : ∃ done t, (StoreCall.save sc).perform env actor s = (.ok (.flag done), t) :=
    save_of_may henv.backend hmay
  obtain ⟨hdone, -⟩ := save_cases henv.backend h
  rw [(Backend.memory_unfailing.through p).syncAll] at hdone
  exact ⟨t, hdone ▸ h⟩

theorem memory_loadSpace (p : Part σ Values) (ns : String) (x : σ) :
    (Backend.memory.through p).loadSpace ns x = ((p.get x).get? ns, p.set (p.get x) x) := by
  have hload : ((Backend.memory.through p).load ns none).tolerate x =
      (some ((p.get x).find ns none), p.set (p.get x) x) := tolerate_eq _ x
  unfold Backend.loadSpace
  rw [state_bind_apply, hload, Values.find]
  cases (p.get x).get? ns <;> rfl

theorem loadAll_count (henv : env.StoresIn p) {names : List String} {n : Nat}
    (hnames : ∀ ns ∈ names, ((p.get s.outside).get? ns).isSome)
    (h : loadAll (Backend.memory.through p) names s = (.ok n, t)) :
    n = names.length ∧ p.get t.outside = p.get s.outside := by
  induction names generalizing s n with
  | nil =>
    cases h
    exact ⟨rfl, rfl⟩
  | cons name names ih =>
    have hget : p.get (p.set (p.get s.outside) s.outside) = p.get s.outside := henv.lawful _ _
    obtain ⟨values, hvalues⟩ := Option.isSome_iff_exists.mp (hnames name List.mem_cons_self)
    rw [loadAll, onOutside_bind, memory_loadSpace, hvalues] at h
    dsimp only at h
    rw [Attempt.modify_bind] at h
    obtain ⟨e, -, he⟩ | ⟨m, v, hrest, h⟩ := Attempt.bind_cases h
    · cases he
    cases h
    have hrest := ih (fun ns hns => ?_) hrest
    · exact ⟨congrArg Nat.succ hrest.1, hrest.2.trans hget⟩
    · change ((p.get (p.set (p.get s.outside) s.outside)).get? ns).isSome = true
      rw [hget]
      exact hnames ns (List.mem_cons_of_mem name hns)

/-- Loading everything by somebody who may do so does not fail. -/
theorem load_true (henv : env.StoresIn p) (hactor : actor.bypass = true) :
    ∃ t, (StoreCall.load none).perform env actor s = (.ok (.flag true), t) ∧
      p.get t.outside = p.get s.outside := by
  obtain ⟨done, t, h⟩ :
      ∃ done t, (StoreCall.load none).perform env actor s = (.ok (.flag done), t) :=
    load_of_may henv.backend fun _ _ => .inl hactor
  obtain ⟨n, v, hload, hdone, hn⟩ := load_cases henv.backend h
  obtain ⟨hlisted, hget⟩ := henv.listed_all s.outside
  have hnames : ∀ ns ∈ (listed (Backend.memory.through p) none s.outside).1,
      ((p.get (listed (Backend.memory.through p) none s.outside).2).get? ns).isSome := by
    intro ns hns
    rw [hget]
    exact Table.mem_keys.mp (hlisted ▸ hns)
  obtain ⟨hcount, hsame⟩ := henv.loadAll_count hnames hload
  have hlength : (n == ((none : Option String).elim
      (listed (Backend.memory.through p) none s.outside).1 fun n => [n]).length) = true :=
    beq_iff_eq.mpr hcount
  rw [hlength] at hdone
  exact ⟨t, hdone ▸ h, (hn.view henv.sink).trans (hsame.trans hget)⟩

/-- Loading lays what is stored over what the store holds. -/
theorem load_above (henv : env.StoresIn p) (hactor : actor.bypass = true)
    (hs : (p.get s.outside).Ordered) :
    ∃ t, (StoreCall.load none).perform env actor s = (.ok (.flag true), t) ∧
      p.get t.outside = p.get s.outside ∧
      t.data.values.contents = (p.get s.outside).contents.above s.data.values.contents := by
  obtain ⟨t, ht, hsame⟩ := henv.load_true hactor (s := s)
  refine ⟨t, ht, hsame, funext fun ns => ?_⟩
  exact (load_covered henv.stores hs (fun _ => rfl) ht ns).1 fun _ hn => nomatch hn

end Environment.StoresIn

/-- With a backend in memory, whatever it holds, saving everything makes it hold exactly the
namespaces of the store that are not empty, each with exactly its values, and loading that into a
store without data gives these back. Saving one namespace does so for this one. Loading everything
into any store gives what it held with the stored values over it, and doing it again changes
nothing. -/
theorem storage_round_trip {env env' : Environment σ} {p : Part σ Values} (henv : env.StoresIn p)
    (henv' : env'.StoresIn p) {actor : Actor} (hactor : actor.bypass = true) {s : Store σ}
    (hdata : s.data.Reached) (hs : (p.get s.outside).Ordered) :
    (∃ t, (StoreCall.save none).perform env actor s = (.ok (.flag true), t) ∧
      (p.get t.outside).contents = s.data.values.filled ∧
      ∀ u : Store σ, u.data = .empty → p.get u.outside = p.get t.outside →
        ∃ v, (StoreCall.load none).perform env' actor u = (.ok (.flag true), v) ∧
          v.data.values.contents = s.data.values.filled) ∧
      (∀ ns, ∃ t, (StoreCall.save (some ns)).perform env actor s = (.ok (.flag true), t) ∧
        (p.get t.outside).contents =
          Function.update (p.get s.outside).contents ns (s.data.values.filled ns)) ∧
      ∀ u : Store σ, (p.get u.outside).Ordered →
        ∃ v, (StoreCall.load none).perform env' actor u = (.ok (.flag true), v) ∧
          p.get v.outside = p.get u.outside ∧
          v.data.values.contents = (p.get u.outside).contents.above u.data.values.contents ∧
          ∃ w, (StoreCall.load none).perform env' actor v = (.ok (.flag true), w) ∧
            w.data.values.contents = v.data.values.contents := by
  refine ⟨?_, fun ns => ?_, fun u hu => ?_⟩
  · obtain ⟨t, ht⟩ := henv.save_true (s := s) hactor none
    have hsound := (Store.save_synced henv.stores hs hdata.sorted hdata.ordered ht).1
    have hcontents : (p.get t.outside).contents = s.data.values.filled := by
      funext ns
      exact (Store.save_covered henv.stores hs hdata (fun _ => rfl) ht ns).1 fun _ hn => nomatch hn
    refine ⟨t, ht, hcontents, fun u hempty hu => ?_⟩
    obtain ⟨v, hv, -, habove⟩ := henv'.load_above (s := u) hactor (hu ▸ hsound)
    refine ⟨v, hv, ?_⟩
    rw [habove, hu, hcontents, hempty]
    exact Contents.above_none _
  · obtain ⟨t, ht⟩ := henv.save_true (s := s) hactor (some ns)
    refine ⟨t, ht, funext fun ns' => ?_⟩
    obtain ⟨hmeant, hrest⟩ := Store.save_covered henv.stores hs hdata (fun _ => rfl) ht ns'
    rw [Function.update_apply]
    split
    · rename_i hn
      subst hn
      exact hmeant fun _ hn => Option.some.inj hn
    · rename_i hn
      exact hrest fun hc => hn (hc ns rfl)
  · obtain ⟨v, hv, hsame, habove⟩ := henv'.load_above (s := u) hactor hu
    obtain ⟨w, hw, -, hagain⟩ := henv'.load_above (s := v) hactor (hsame ▸ hu)
    refine ⟨v, hv, hsame, habove, w, hw, ?_⟩
    rw [hagain, hsame, habove, Contents.above_above]

/-- Saving replaces a key and a namespace that are only stored, and leaves out a namespace that is
empty; loading brings the saved value into a store that has another one. -/
theorem storage_round_trip_stale :
    let env : Environment Values := ⟨some (Backend.memory.through .whole), none, none, 0⟩
    let stored := (Values.put .empty "a" "j" .null).put "b" "k" .null
    let s := (Store.follow env (.blank stored) [(.system, .set "a" "k" (.bool true) .default),
      (.system, .set "c" "k" .null .default), (.system, .delete "c" (some "k"))]).2
    let u := (Store.follow env (.blank stored) [(.system, .set "b" "l" .null .default)]).2
    (∃ t, (StoreCall.save none).perform env .system s = (.ok (.flag true), t) ∧
        t.outside.value? "a" "k" = some (.bool true) ∧ t.outside.value? "a" "j" = none ∧
        t.outside.get? "b" = none ∧ t.outside.get? "c" = none) ∧
      ∃ v, (StoreCall.load none).perform env .system u = (.ok (.flag true), v) ∧
        v.data.value? "b" "k" = some .null ∧ v.data.value? "b" "l" = some .null := by
  intro env stored s u
  have henv : env.StoresIn .whole := ⟨fun _ _ => rfl, rfl, fun _ hk => nomatch hk⟩
  have hstored : stored.Ordered := (Values.Ordered.empty.put "a" "j" .null).put "b" "k" .null
  have hdata : s.data.Reached :=
    ⟨Values, env, _, s, _, Store.blank_fresh stored, Store.follow_run _ _ _, rfl⟩
  have hs : Part.whole.get s.outside = stored := rfl
  have hu : Part.whole.get u.outside = stored := rfl
  have hsystem : Actor.system.bypass = true := rfl
  obtain ⟨⟨t, ht, hsaved, -⟩, -, hload⟩ :=
    storage_round_trip henv henv hsystem hdata (hs ▸ hstored)
  obtain ⟨v, hv, -, habove, -⟩ := hload u (hu ▸ hstored)
  have held (ns : String) (h : s.data.values.filled ns = none) : t.outside.get? ns = none := by
    have hnone := congrFun hsaved ns
    rw [h] at hnone
    exact Option.map_eq_none_iff.mp hnone
  have value (ns key : String) : t.outside.value? ns key = s.data.values.filled.value? ns key := by
    rw [← hsaved]
    exact (Values.contents_value? t.outside ns key).symm
  have loaded (ns key : String) : v.data.value? ns key =
      (stored.value? ns key).or (u.data.value? ns key) := by
    have hvalue := Values.contents_value? v.data.values ns key
    rw [habove, hu, Contents.value?_above, Values.contents_value?, Values.contents_value?] at hvalue
    exact hvalue.symm
  exact ⟨⟨t, ht, value "a" "k", value "a" "j", held "b" rfl, held "c" rfl⟩, v, hv,
    loaded "b" "k", loaded "b" "l"⟩

end Workflow
