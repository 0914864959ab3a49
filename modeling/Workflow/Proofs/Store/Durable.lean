import Workflow.Proofs.Storage.Honest

/-!
# Saving and loading the store

Saving makes the backend hold what the store holds, of one namespace or of all; loading lays what
the backend holds over what the store holds. Both tell the truth about their success, as far as they
know which namespaces are stored: where the backend cannot tell that, none are taken to be.
-/
namespace Workflow
open Attempt
variable {σ : Type}

/-- Whether an operation on one namespace, or on all, is about a namespace. -/
def Covers (scope : Option String) (ns : String) : Prop := ∀ n ∈ scope, ns = n

/-- Data that was left by a run from a fresh store. -/
def StoreData.Reached (d : StoreData) : Prop :=
  ∃ (σ : Type) (env : Environment σ) (s t : Store σ) (steps : List (StoreStep σ)),
    s.Fresh ∧ Store.Run env s steps t ∧ t.data = d

namespace StoreData

theorem Reached.sorted {d : StoreData} (h : d.Reached) : d.values.Sorted := by
  obtain ⟨σ, env, s, t, steps, hs, hrun, rfl⟩ := h
  exact hrun.sorted hs

theorem Reached.ordered {d : StoreData} (h : d.Reached) : d.Ordered := by
  obtain ⟨σ, env, s, t, steps, hs, hrun, rfl⟩ := h
  exact (hs.ordered.run hrun).data

end StoreData

/-- The backend does what it reports, and the sink works beside it. -/
structure Environment.Stores (env : Environment σ) (b : Backend σ) (sound : σ → Prop)
    (contents : σ → Contents) : Prop where
  backend : env.backend = some b
  honest : b.Honest sound contents
  sink : ∀ k ∈ env.sink, k.Spares fun x => (sound x, contents x)

namespace Store
variable {env : Environment σ} {b : Backend σ} {sound : σ → Prop} {contents : σ → Contents}
  {actor : Actor} {s t u : Store σ} {sc : Option String}

theorem Noted.stores (henv : env.Stores b sound contents) (h : Noted env actor s t) :
    (sound t.outside ↔ sound s.outside) ∧ contents t.outside = contents s.outside := by
  let view (x : σ) : Prop × Contents := (sound x, contents x)
  have hview : view t.outside = view s.outside := h.view henv.sink
  obtain ⟨hsound, hcontents⟩ := Prod.mk.inj hview
  exact ⟨iff_of_eq hsound, hcontents⟩

theorem get?_ensureAll (vs : Values) (stored : List String) (ns : String) :
    (stored.foldl Values.ensure vs).get? ns =
      (vs.get? ns).or (if ns ∈ stored then some .empty else none) := by
  induction stored generalizing vs with
  | nil => simp
  | cons n stored ih =>
    rw [List.foldl_cons, ih, Values.ensure, Table.get?_insert]
    by_cases hn : ns = n
    · subst hn
      cases hns : vs.get? ns <;> simp [Values.space, hns]
    · simp [hn]

theorem space_shown (vs : Values) (ns : String) : (vs.space ns).shown? = vs.filled ns := by
  unfold Values.space Values.filled
  cases vs.get? ns <;> rfl

/-- One namespace is saved, and the others are let alone. -/
theorem shown_scope_one (vs : Values) (stored : List String) (n ns : String)
    (found : Option (String → Option Json)) :
    (Table.lookup ns (scope vs stored (some n)).entries).elim found Table.shown? =
      if ns = n then vs.filled ns else found := by
  change (Table.lookup ns [(n, vs.space n)]).elim found Table.shown? = _
  rw [Table.lookup]
  split
  · rename_i hn
    rw [Option.elim_some, space_shown, hn]
  · rfl

/-- All namespaces are saved, and those removed that are only known to be stored. -/
theorem shown_scope_all (vs : Values) (stored : List String) (ns : String)
    (found : Option (String → Option Json)) :
    (Table.lookup ns (scope vs stored none).entries).elim found Table.shown? =
      if (vs.get? ns).isSome ∨ ns ∈ stored then vs.filled ns else found := by
  change ((stored.foldl Values.ensure vs).get? ns).elim found Table.shown? = _
  rw [get?_ensureAll, Values.filled]
  cases vs.get? ns with
  | some t => simp
  | none => by_cases hs : ns ∈ stored <;> simp [hs, Table.shown?, Table.isEmpty, Table.empty]

theorem scope_sorted {vs : Values} (h : vs.Sorted) (stored : List String) :
    ∀ sc, Table.Sorted (scope vs stored sc)
  | some _ => List.pairwise_singleton _ _
  | none => by
    change Table.Sorted (stored.foldl Values.ensure vs)
    induction stored generalizing vs with
    | nil => exact h
    | cons n stored ih => exact ih (h.insert n _)

theorem scope_ordered {vs : Values} (h : vs.Ordered) (stored : List String) :
    ∀ sc, (scope vs stored sc).Ordered
  | some n => by
    change Values.Ordered (Table.empty.insert n (vs.space n))
    exact Values.Ordered.empty.insert (h.space n) n
  | none => by
    change Values.Ordered (stored.foldl Values.ensure vs)
    induction stored generalizing vs with
    | nil => exact h
    | cons n stored ih => exact ih (h.ensure n)

/-- What the backend tells of the stored namespaces, if an operation is about all of them. -/
def listed (b : Backend σ) (sc : Option String) (x : σ) : List String × σ :=
  sc.elim (b.tryNamespaces x) fun _ => ([], x)

theorem storedSpaces_eq (b : Backend σ) (sc : Option String) (s : Store σ) :
    storedSpaces b sc s = (.ok (listed b sc s.outside).1,
      { s with outside := (listed b sc s.outside).2 }) := by
  cases sc <;> rfl

theorem listed_honest (h : b.Honest sound contents) {x : σ} (hx : sound x) (sc : Option String) :
    sound (listed b sc x).2 ∧ contents (listed b sc x).2 = contents x := by
  cases sc with
  | some _ => exact ⟨hx, rfl⟩
  | none =>
    obtain ⟨hsound, hsame, -⟩ := h.tryNamespaces hx
    exact ⟨hsound, hsame⟩

theorem save_cases {done : Bool} (hb : env.backend = some b)
    (h : (StoreCall.save sc).perform env actor s = (.ok (.flag done), t)) :
    let listing := listed b sc s.outside
    let synced := b.syncAll (scope s.data.values listing.1 sc).entries listing.2
    synced.1 = done ∧ Noted env actor { s with outside := synced.2 } t := by
  generalize hr : (.ok (.flag done) : Except StoreError StoreAnswer) = r at h
  cases StoreCall.perform_ends h with
  | failed => cases hr
  | payload hcall => rcases hcall with hcall | hcall <;> cases hcall
  | unlisted => cases hr
  | @save _ b' names u done' v _ hb' hl hsync hn =>
    obtain rfl : done = done' := by cases hr; rfl
    obtain rfl : b = b' := Option.some.inj (hb.symm.trans hb')
    rw [storedSpaces_eq] at hl
    cases hl
    cases hsync
    exact ⟨rfl, hn⟩

theorem load_cases {done : Bool} (hb : env.backend = some b)
    (h : (StoreCall.load sc).perform env actor s = (.ok (.flag done), t)) :
    let listing := listed b sc s.outside
    let targets := sc.elim listing.1 fun ns => [ns]
    ∃ n v, loadAll b targets { s with outside := listing.2 } = (.ok n, v) ∧
      done = (n == targets.length) ∧ Noted env actor v t := by
  generalize hr : (.ok (.flag done) : Except StoreError StoreAnswer) = r at h
  cases StoreCall.perform_ends h with
  | failed => cases hr
  | payload hcall => rcases hcall with hcall | hcall <;> cases hcall
  | unlisted => cases hr
  | @load _ b' names u n v _ hb' hl hload hn =>
    obtain rfl : b = b' := Option.some.inj (hb.symm.trans hb')
    rw [storedSpaces_eq] at hl
    cases hl
    cases hr
    exact ⟨n, v, hload, rfl, hn⟩

/-- A save that reports success has made the backend hold the values that it is about. -/
theorem save_synced (henv : env.Stores b sound contents) (hs : sound s.outside)
    (hsorted : s.data.values.Sorted) (hordered : s.data.Ordered)
    (h : (StoreCall.save sc).perform env actor s = (.ok (.flag true), t)) :
    sound t.outside ∧ ∀ ns, contents t.outside ns =
      (Table.lookup ns (scope s.data.values (listed b sc s.outside).1 sc).entries).elim
        (contents s.outside ns) Table.shown? := by
  obtain ⟨hdone, hn⟩ := save_cases henv.backend h
  obtain ⟨hkind, hcontents⟩ := hn.stores henv
  obtain ⟨hsound, hsame⟩ := listed_honest henv.honest hs sc
  have htable := scope_sorted hsorted (listed b sc s.outside).1 sc
  have hvalues : ∀ e ∈ (scope s.data.values (listed b sc s.outside).1 sc).entries,
      e.2.Sorted := fun e he => scope_ordered hordered _ sc e.1 e.2 (htable.get?_of_mem he)
  have hdoes : Does (SoundBut sound contents fun _ => True)
      (b.syncAll (scope s.data.values (listed b sc s.outside).1 sc).entries) :=
    Backend.DoesIn.syncAll fun ns _ => henv.honest.doesIn trivial
  refine ⟨hkind.mpr (hdoes _ hsound).1, fun ns => ?_⟩
  rw [hcontents, henv.honest.syncAll htable.distinct hvalues hsound hdone, hsame]

theorem contents_extend {d : StoreData} {now : Instant} {ns : String} {values : Table Json}
    {c : Contents}
    (hvalues : values.Sorted) (hc : c ns = some values.get?) :
    (d.extend now ns values).values.contents =
      Function.update d.values.contents ns (c.above d.values.contents ns) := by
  have hunion (key : String) : ((d.values.space ns).union values).get? key =
      (values.get? key).or ((d.values.space ns).get? key) := by
    rw [Table.union, Table.get?_insertAll, Table.lookup_reverse hvalues.distinct]
    rfl
  rw [StoreData.extend, StoreData.recordWrites_values, Values.putAll, Values.contents_insert,
    funext hunion]
  congr 1
  unfold Contents.above Values.contents Values.space
  rw [hc]
  cases d.values.get? ns with
  | none => simp
  | some t => rfl

/-- Loading namespaces changes nothing outside. If all of them could be loaded, then their values
lie over what was there. -/
theorem loadAll_overlaid (h : b.Honest sound contents) {names : List String} {n : Nat}
    (hs : sound s.outside) (hload : loadAll b names s = (.ok n, t)) :
    (sound t.outside ∧ contents t.outside = contents s.outside ∧ n ≤ names.length) ∧
      (n = names.length → ∀ ns, t.data.values.contents ns =
        if ns ∈ names then (contents s.outside).above s.data.values.contents ns
        else s.data.values.contents ns) := by
  induction names generalizing s n with
  | nil =>
    cases hload
    exact ⟨⟨hs, rfl, Nat.le_refl 0⟩, fun _ _ => rfl⟩
  | cons name names ih =>
    rw [loadAll, onOutside_bind] at hload
    obtain ⟨hsound, hsame, hfound⟩ := h.loadSpace name hs
    cases hvalues : (b.loadSpace name s.outside).1 with
    | none =>
      simp only [hvalues] at hload
      obtain ⟨⟨hsound, hcontents, hle⟩, -⟩ := ih hsound hload
      refine ⟨⟨hsound, hcontents.trans hsame, Nat.le_succ_of_le hle⟩, fun hall => ?_⟩
      rw [hall, List.length_cons] at hle
      omega
    | some values =>
      obtain ⟨hvalues', hc⟩ := hfound values hvalues
      simp only [hvalues] at hload
      rw [Attempt.modify_bind] at hload
      obtain ⟨e, -, he⟩ | ⟨m, v, hrest, hload⟩ := Attempt.bind_cases hload
      · cases he
      cases hload
      obtain ⟨⟨hsound, hcontents, hle⟩, habove⟩ := ih hsound hrest
      refine ⟨⟨hsound, hcontents.trans hsame, Nat.succ_le_succ hle⟩, fun hall ns => ?_⟩
      have hextend : (mapData (·.extend s.now name values)
          { s with outside := (b.loadSpace name s.outside).2 }).data.values.contents =
          Function.update s.data.values.contents name
            ((contents s.outside).above s.data.values.contents name) :=
        contents_extend hvalues' hc
      rw [habove (Nat.succ.inj hall) ns, hextend]
      simp only [mapData, hsame]
      by_cases hn : ns = name
      · subst hn
        simp [Contents.above_update]
      · simp only [List.mem_cons, hn, false_or, Function.update_of_ne hn]
        split
        · exact Contents.above_congr _ (Function.update_of_ne hn _ _)
        · rfl

/-- A load that reports success has laid what is stored over what the store held. -/
theorem load_overlaid (henv : env.Stores b sound contents) (hs : sound s.outside)
    (h : (StoreCall.load sc).perform env actor s = (.ok (.flag true), t)) :
    (sound t.outside ∧ contents t.outside = contents s.outside) ∧
      ∀ ns, t.data.values.contents ns =
        if ns ∈ sc.elim (listed b sc s.outside).1 (fun n => [n]) then
          (contents s.outside).above s.data.values.contents ns
        else s.data.values.contents ns := by
  obtain ⟨n, v, hload, hdone, hn⟩ := load_cases henv.backend h
  obtain ⟨hsound, hsame⟩ := listed_honest henv.honest hs sc
  obtain ⟨⟨hsoundv, hv, -⟩, habove⟩ := loadAll_overlaid henv.honest hsound hload
  obtain ⟨hkind, hcontents⟩ := hn.stores henv
  refine ⟨⟨hkind.mpr hsoundv, hcontents.trans (hv.trans hsame)⟩, fun ns => ?_⟩
  rw [hn.data, habove (beq_iff_eq.mp hdone.symm) ns, hsame]

theorem save_of_may (hb : env.backend = some b)
    (hmay : ∀ resource, actor.May s.permissions resource .read) :
    ∃ done t, (StoreCall.save sc).perform env actor s = (.ok (.flag done), t) := by
  have hpass (x : σ) (resources : List String) :
      authorizeAll env actor "save_to_storage" .read resources { s with outside := x } =
        (.ok ⟨⟩, { s with outside := x }) := authorizeAll_of_may fun r _ => hmay r
  simp only [StoreCall.perform, Store.save, backend, hb, pure_bind, bind_assoc]
  rw [bind_apply, storedSpaces_eq]
  dsimp only
  rw [get_bind, bind_apply, hpass]
  exact ⟨_, _, rfl⟩

theorem load_of_may (hb : env.backend = some b)
    (hmay : ∀ resource ∈ (sc.elim (listed b sc s.outside).1 (fun n => [n])).map spaceResource,
      actor.May s.permissions resource .write) :
    ∃ done t, (StoreCall.load sc).perform env actor s = (.ok (.flag done), t) := by
  have hpass : authorizeAll env actor "load_from_storage" .write
      ((sc.elim (listed b sc s.outside).1 fun n => [n]).map spaceResource)
      { s with outside := (listed b sc s.outside).2 } =
        (.ok ⟨⟩, { s with outside := (listed b sc s.outside).2 }) := authorizeAll_of_may hmay
  simp only [StoreCall.perform, Store.load, backend, hb, pure_bind, bind_assoc]
  rw [bind_apply, storedSpaces_eq]
  dsimp only
  rw [bind_apply, hpass]
  obtain ⟨n, v, hv⟩ := loadAll_total b (sc.elim (listed b sc s.outside).1 fun n => [n])
    { s with outside := (listed b sc s.outside).2 }
  dsimp only
  rw [bind_apply, hv]
  exact ⟨_, _, rfl⟩

theorem covers_some {name ns : String} : Covers (some name) ns ↔ ns = name :=
  ⟨fun hc => hc name rfl, fun hn _ hm => hn.trans (Option.some.inj hm)⟩

/-- What is not listed is not stored, if listing does not fail. -/
theorem contents_unlisted (h : b.Honest sound contents) {x : σ} (hs : sound x)
    (hlist : (b.namespaces x).1.isOk = true) {ns : String} (hn : ns ∉ (listed b none x).1) :
    contents x ns = none := by
  obtain ⟨-, -, hall⟩ := h.tryNamespaces hs
  rw [← Option.not_isSome_iff_eq_none, ← hall hlist ns]
  exact hn

theorem save_covered (henv : env.Stores b sound contents) (hs : sound s.outside)
    (hdata : s.data.Reached) (hlist : sc = none → (b.namespaces s.outside).1.isOk = true)
    (h : (StoreCall.save sc).perform env actor s = (.ok (.flag true), t)) (ns : String) :
    (Covers sc ns → contents t.outside ns = s.data.values.filled ns) ∧
      (¬Covers sc ns → contents t.outside ns = contents s.outside ns) := by
  obtain ⟨-, hsynced⟩ := save_synced henv hs hdata.sorted hdata.ordered h
  rw [hsynced ns]
  cases sc with
  | some n =>
    rw [shown_scope_one]
    rw [covers_some]
    exact ⟨fun hn => if_pos hn, fun hn => if_neg hn⟩
  | none =>
    rw [shown_scope_all]
    refine ⟨fun _ => ?_, fun hn => absurd (fun _ hm => nomatch hm) hn⟩
    split
    · rfl
    · rename_i hnone
      obtain ⟨hmem, hstored⟩ := not_or.mp hnone
      rw [contents_unlisted henv.honest hs (hlist rfl) hstored, Values.filled,
        Option.not_isSome_iff_eq_none.mp hmem, Option.bind_none]

theorem load_covered (henv : env.Stores b sound contents) (hs : sound s.outside)
    (hlist : sc = none → (b.namespaces s.outside).1.isOk = true)
    (h : (StoreCall.load sc).perform env actor s = (.ok (.flag true), t)) (ns : String) :
    (Covers sc ns → t.data.values.contents ns =
        (contents s.outside).above s.data.values.contents ns) ∧
      (¬Covers sc ns → t.data.values.contents ns = s.data.values.contents ns) := by
  obtain ⟨-, habove⟩ := load_overlaid henv hs h
  rw [habove ns]
  cases sc with
  | some n =>
    rw [covers_some, ← List.mem_singleton]
    exact ⟨fun hn => if_pos hn, fun hn => if_neg hn⟩
  | none =>
    refine ⟨fun _ => ?_, fun hn => absurd (fun _ hm => nomatch hm) hn⟩
    split
    · rfl
    · rename_i hstored
      rw [Contents.above, contents_unlisted henv.honest hs (hlist rfl) hstored]

end Store

/-- A save or load that reports success has done what it is there for, if it is about one namespace
or the backend can list its namespaces: after saving, the backend holds exactly what the store holds
and is not empty; after loading, the store holds every value that the backend holds. If the backend
cannot list them, then saving everything keeps to the namespaces of the store and lets what else is
stored stay, and loading everything does nothing; both report success all the same. -/
theorem storage_reported {env : Environment σ} {b : Backend σ} {sound : σ → Prop}
    {contents : σ → Contents} (henv : env.Stores b sound contents) {s : Store σ}
    (hs : sound s.outside) (hdata : s.data.Reached) (actor : Actor) :
    (∀ sc t, (StoreCall.save sc).perform env actor s = (.ok (.flag true), t) →
      (sc = none → (b.namespaces s.outside).1.isOk = true) → ∀ ns,
        (Covers sc ns → contents t.outside ns = s.data.values.filled ns) ∧
          (¬Covers sc ns → contents t.outside ns = contents s.outside ns)) ∧
      (∀ sc t, (StoreCall.load sc).perform env actor s = (.ok (.flag true), t) →
        (sc = none → (b.namespaces s.outside).1.isOk = true) → ∀ ns key v, Covers sc ns →
          (contents s.outside).value? ns key = some v → t.data.value? ns key = some v) ∧
      ((b.namespaces s.outside).1.isOk = false →
        (∀ t, (StoreCall.save none).perform env actor s = (.ok (.flag true), t) →
          ∀ ns, contents t.outside ns =
            if (s.data.space? ns).isSome then s.data.values.filled ns
            else contents s.outside ns) ∧
        ∃ t, (StoreCall.load none).perform env actor s = (.ok (.flag true), t) ∧
          t.data = s.data) := by
  have hnone (hlist : (b.namespaces s.outside).1.isOk = false) :
      (Store.listed b none s.outside).1 = [] := Backend.tryNamespaces_of_not_isOk hlist
  refine ⟨fun sc t h hlist => ?_, fun sc t h hlist ns key v hc hv => ?_, fun hlist => ⟨?_, ?_⟩⟩
  · exact Store.save_covered henv hs hdata hlist h
  · have habove := (Store.load_covered henv hs hlist h ns).1 hc
    have hvalue := t.data.values.contents_value? ns key
    rw [Contents.value?, habove] at hvalue
    refine hvalue.symm.trans ?_
    rw [← Contents.value?, Contents.value?_above, hv, Option.some_or]
  · intro t h ns
    obtain ⟨-, hsynced⟩ := Store.save_synced henv hs hdata.sorted hdata.ordered h
    rw [hsynced ns, Store.shown_scope_all, hnone hlist]
    by_cases hspace : (s.data.space? ns).isSome
    · rw [if_pos hspace, if_pos (.inl hspace)]
    · rw [if_neg hspace]
      exact if_neg (not_or.mpr ⟨hspace, List.not_mem_nil⟩)
  · obtain ⟨done, t, h⟩ : ∃ done t,
        (StoreCall.load none).perform env actor s = (.ok (.flag done), t) := by
      apply Store.load_of_may henv.backend
      rw [Option.elim_none, hnone hlist]
      exact List.forall_mem_nil _
    obtain ⟨n, v, hload, hdone, hn⟩ := Store.load_cases henv.backend h
    rw [Option.elim_none, hnone hlist] at hload hdone
    cases hload
    have hzero : done = true := hdone
    exact ⟨t, hzero ▸ h, hn.data⟩

/-- A backend in memory that cannot list its namespaces. -/
def Backend.unlisted : Backend Values :=
  { Backend.memory with namespaces := throw (.file .notFound) }

theorem Backend.unlisted_honest : Backend.unlisted.Honest Values.Ordered Values.contents where
  save := Backend.memory_honest.save
  load := Backend.memory_honest.load
  delete := Backend.memory_honest.delete
  namespaces _ hvs := ⟨hvs, .inl ⟨_, rfl, rfl⟩⟩

theorem Environment.unlisted_stores :
    Environment.Stores ⟨some .unlisted, none, none, 0⟩ .unlisted Values.Ordered
      Values.contents where
  backend := rfl
  honest := Backend.unlisted_honest
  sink := fun _ hk => nomatch hk

/-- A stored value is not loaded with all others, though that reports success; it is loaded with its
namespace. Nor is it removed by saving everything from a store without data. -/
theorem storage_reported_unlisted :
    let env : Environment Values := ⟨some .unlisted, none, none, 0⟩
    let s : Store Values := .blank (Values.put .empty "a" "k" .null)
    (∃ t, (StoreCall.load none).perform env .system s = (.ok (.flag true), t) ∧
        t.data.value? "a" "k" = none) ∧
      (∃ t, (StoreCall.load (some "a")).perform env .system s = (.ok (.flag true), t) ∧
        t.data.value? "a" "k" = some .null) ∧
      ∃ t, (StoreCall.save none).perform env .system s = (.ok (.flag true), t) ∧
        t.outside.value? "a" "k" = some .null := by
  intro env s
  have hordered : Values.Ordered s.outside := Values.Ordered.empty.put "a" "k" .null
  have hdata : s.data.Reached := ⟨Values, env, s, s, [], Store.blank_fresh _, .start, rfl⟩
  obtain ⟨-, hload, hunlisted⟩ :=
    storage_reported Environment.unlisted_stores hordered hdata .system
  obtain ⟨hsaved, t, ht, hkept⟩ := hunlisted rfl
  refine ⟨⟨t, ht, ?_⟩, ?_, ?_⟩
  · rw [hkept]
    rfl
  · obtain ⟨t, ht⟩ : ∃ t, (StoreCall.load (some "a")).perform env .system s =
        (.ok (.flag true), t) := ⟨_, rfl⟩
    refine ⟨t, ht, hload _ t ht (fun h => nomatch h) "a" "k" .null ?_ rfl⟩
    exact fun _ hn => Option.some.inj hn
  · obtain ⟨t, ht⟩ : ∃ t, (StoreCall.save none).perform env .system s =
        (.ok (.flag true), t) := ⟨_, rfl⟩
    have hvalue := Values.contents_value? t.outside "a" "k"
    rw [Contents.value?, hsaved t ht "a"] at hvalue
    exact ⟨t, ht, hvalue.symm⟩

end Workflow
