import Workflow.Proofs.Store.References
import Workflow.Proofs.Store.Snapshot

/-!
# Payloads that are read again

What is read of a payload depends on the value of its key alone, and on the object at one place if
that value refers to it. Snapshots are of values and not of objects. So a payload comes back with a
snapshot if the value holds it, or if its object has been left alone meanwhile.
-/
namespace Workflow
open Attempt
variable {σ α β : Type}

/-- The bytes of an object concern its place only, which may have more than one path. -/
def Environment.Separates (env : Environment σ) (same : StorePath → StorePath → Prop) : Prop :=
  ∀ o ∈ env.objects, ∀ path, env.OnlyAt (same path) (o.bytes path)

theorem Environment.withObjects_separates (threshold : Nat) :
    (withObjects threshold).Separates fun path place => place = path := by
  intro o ho path
  obtain rfl := Option.some.inj ho
  exact ⟨fun o ho => Option.some.inj ho ▸ ObjectStore.memory_apart path, nofun, nofun⟩

/-- A call writes no object at some places, and takes no reference to them away. -/
structure StoreStep.Spares (env : Environment σ) (P : StorePath → Prop) (step : StoreStep σ) :
    Prop where
  saved : ∀ path ∈ step.call.saved? (step.answer env), ¬P path
  kept : step.call.releases = true → ∀ ns key path, P path → step.before.data.Refers ns key path →
    (step.after env).data.Refers ns key path

namespace Store
variable {env : Environment σ} {same : StorePath → StorePath → Prop} {actor : Actor}
  {s t : Store σ} {r : Except StoreError StoreAnswer} {ns key : String}

theorem Run.view {steps : List (StoreStep σ)} {P : StorePath → Prop} {view : σ → β}
    (henv : env.OnlyAt P view) (hs : s.Ordered) (h : Run env s steps t)
    (hsteps : ∀ step ∈ steps, step.call.Formed ∧ step.Spares env P) :
    view t.outside = view s.outside := by
  apply h.keeps_ordered (P := fun t => view t.outside = view s.outside) _ _ hs hsteps rfl
  · rintro step ⟨hcall, hspares⟩ hordered hview
    have hstep := step.perform_eq env
    have hsame := perform_view henv hordered.data hcall hstep hspares.saved hspares.kept
    exact hsame.trans hview
  · intro s t ha hview
    rw [ha.outside]
    exact hview

/-- The bytes of the payload of a key, for somebody who may read them. -/
def payload (env : Environment σ) (ns key : String) (s : Store σ) : Except StoreError Bytes :=
  (fetch env ⟨ns, key⟩ (s.data.value? ns key) id (fun o place => o.load place.ns place.key)
    s.outside).1

theorem descriptorOf_ok {path : StorePath} {found : Option Json} {d : Descriptor}
    (h : descriptorOf path found = .ok d) :
    ∃ v, found = some v ∧ Descriptor.isMarked v = true ∧ Descriptor.decode v = .ok d := by
  cases found with
  | none => cases h
  | some v =>
    dsimp only [descriptorOf] at h
    split at h
    · cases h
    · rename_i hmarked
      cases hd : Descriptor.decode v with
      | error e =>
        rw [hd] at h
        cases h
      | ok d' =>
        rw [hd] at h
        change (if (!d'.isConsistent) = true then _ else _) = _ at h
        split at h
        · cases h
        · cases h
          exact ⟨v, rfl, by simpa using hmarked, hd⟩

theorem descriptorOf_of_decode {path : StorePath} {v : Json} {d : Descriptor}
    (hmarked : Descriptor.isMarked v = true) (hread : Descriptor.decode v = .ok d)
    (hconsistent : d.isConsistent = true) : descriptorOf path (some v) = .ok d := by
  rw [descriptorOf, hmarked, hread]
  change (if (!d.isConsistent) = true then _ else _) = _
  rw [hconsistent]
  rfl

theorem descriptorOf_refers {path place : StorePath} {found : Option Json} {d : Descriptor}
    (h : descriptorOf path found = .ok d) (hl : d.location = .referenced)
    (hp : d.reference = some place) : found.bind Descriptor.referenceOf = some place := by
  obtain ⟨v, rfl, hmarked, hd⟩ := descriptorOf_ok h
  simp [Descriptor.referenceOf, hmarked, hd, hl, hp]

/-- What is fetched is the same whatever is outside, or it is what is found of the object that the
value refers to. -/
theorem fetch_cases (env : Environment σ) (path : StorePath) (found : Option Json)
    (held : Bytes → α) (referred : ObjectStore σ → StorePath → Attempt σ ObjectError α) :
    (∃ r, ∀ x, (fetch env path found held referred x).1 = r) ∨
      ∃ o ∈ env.objects, ∃ place, found.bind Descriptor.referenceOf = some place ∧
        ∀ x, (fetch env path found held referred x).1 =
          (referred o place x).1.mapError .object := by
  unfold fetch
  cases hd : descriptorOf path found with
  | error e => exact .inl ⟨_, fun _ => rfl⟩
  | ok d =>
    cases hl : d.location with
    | inline => exact .inl ⟨(inlineBytes d).map held, fun _ => by simp only [hl]⟩
    | referenced =>
      cases hp : d.reference with
      | none => exact .inl ⟨(inlineBytes d).map held, fun _ => by simp only [hl, hp]⟩
      | some place =>
        cases ho : env.objects with
        | none => exact .inl ⟨.error (.unavailable .objects), fun _ => by simp only [hl, hp]⟩
        | some o =>
          exact .inr ⟨o, rfl, place, descriptorOf_refers hd hl hp, fun _ => by simp only [hl, hp]⟩

/-- What is fetched concerns the object that the value refers to, and nothing else outside. -/
theorem fetch_congr {path : StorePath} {found : Option Json} {held : Bytes → α}
    {referred : ObjectStore σ → StorePath → Attempt σ ObjectError α} {x y : σ}
    (h : ∀ o ∈ env.objects, ∀ place, found.bind Descriptor.referenceOf = some place →
      (referred o place y).1 = (referred o place x).1) :
    (fetch env path found held referred y).1 = (fetch env path found held referred x).1 := by
  obtain ⟨r, hr⟩ | ⟨o, ho, place, hplace, hobject⟩ := fetch_cases env path found held referred
  · rw [hr, hr]
  · rw [hobject, hobject, h o ho place hplace]

/-- What is read of a payload is the same if the value is the same and the object that it refers
to has the same bytes. -/
theorem payload_congr (hvalue : t.data.value? ns key = s.data.value? ns key)
    (hbytes : ∀ o ∈ env.objects, ∀ path, s.data.Refers ns key path →
      o.bytes path t.outside = o.bytes path s.outside) :
    payload env ns key t = payload env ns key s := by
  unfold payload
  rw [hvalue]
  exact fetch_congr hbytes

/-- Reading a payload is refused to those who may not do so; others get what is fetched, as long as
the trail does not disturb the object. -/
theorem readPayload_answer {operation : String} {held : Bytes → α}
    {referred : ObjectStore σ → StorePath → Attempt σ ObjectError α} {found : Except StoreError α}
    (hsink : ∀ o ∈ env.objects, ∀ place, s.data.Refers ns key place →
      ∀ k ∈ env.sink, k.Spares fun x => (referred o place x).1)
    (h : readPayload env actor operation ns key held referred s = (found, t)) :
    (¬actor.May s.permissions (StorePath.mk ns key).resource .read ∧
        ∃ cause, found = .error (.permission cause)) ∨
      found = (fetch env ⟨ns, key⟩ (s.data.value? ns key) held referred s.outside).1 := by
  obtain ⟨hno, cause, rfl, -⟩ | ⟨u, x, hu, hx, -⟩ := readPayload_cases h
  · exact .inl ⟨hno, cause, rfl⟩
  · refine .inr ((congrArg Prod.fst hx).symm.trans (fetch_congr ?_))
    intro o ho place hplace
    exact hu.view (hsink o ho place hplace)

/-- Loading a payload is refused to those who may not read it; others get its bytes. -/
theorem loadPayload_answer
    (hsink : ∀ o ∈ env.objects, ∀ place, s.data.Refers ns key place →
      ∀ k ∈ env.sink, k.Spares (o.bytes place)) (actor : Actor) :
    let answer := ((StoreCall.loadPayload ns key).perform env actor s).1
    (¬actor.May s.permissions (StorePath.mk ns key).resource .read ∧
        ∃ cause, answer = .error (.permission cause)) ∨
      answer = (payload env ns key s).map .bytes := by
  intro answer
  rcases h : (StoreCall.loadPayload ns key).perform env actor s with ⟨r, t⟩
  have hanswer : answer = r := congrArg Prod.fst h
  obtain ⟨found, hload, rfl⟩ := StoreCall.answer_cases h
  obtain ⟨hno, cause, rfl⟩ | rfl := readPayload_answer hsink hload
  · exact .inl ⟨hno, cause, hanswer⟩
  · exact .inr hanswer

/-- Those who may read a payload get its bytes. -/
theorem loadPayload_of_may
    (hsink : ∀ o ∈ env.objects, ∀ place, s.data.Refers ns key place →
      ∀ k ∈ env.sink, k.Spares (o.bytes place))
    (hmay : actor.May s.permissions (StorePath.mk ns key).resource .read) :
    ((StoreCall.loadPayload ns key).perform env actor s).1 = (payload env ns key s).map .bytes := by
  obtain ⟨hno, -⟩ | hread := loadPayload_answer hsink actor
  · exact absurd hmay hno
  · exact hread

theorem loadPayload_may (henv : env.Separates same)
    (hmay : actor.May s.permissions (StorePath.mk ns key).resource .read) :
    ((StoreCall.loadPayload ns key).perform env actor s).1 = (payload env ns key s).map .bytes :=
  loadPayload_of_may (fun o ho place _ => (henv o ho place).sink) hmay

theorem payload_of_load (henv : env.Separates same) {bytes : Bytes}
    (h : ((StoreCall.loadPayload ns key).perform env actor s).1 = .ok (.bytes bytes)) :
    payload env ns key s = .ok bytes := by
  obtain ⟨-, cause, hrefused⟩ | hread :=
    loadPayload_answer (fun o ho place _ => (henv o ho place).sink) actor
  · rw [h] at hrefused
    cases hrefused
  · rw [h] at hread
    cases hpayload : payload env ns key s with
    | error e => simp [hpayload, Except.map] at hread
    | ok found => simpa [hpayload, Except.map] using hread.symm

theorem Restored.value? {u : Store σ} (h : Restored (u.picture ns) s t) (key : String) :
    t.data.value? ns key = u.data.value? ns key := by
  have hspace : t.data.values.get? ns = some (u.data.values.space ns) := h.space
  rw [StoreData.value?, Values.value?, hspace]
  exact Values.get?_space u.data.values ns key

theorem spares_of_values {step : StoreStep σ} {P : StorePath → Prop}
    (hsaved : step.call.saved? (step.answer env) = none)
    (hvalues : ∀ ns key v, step.before.data.value? ns key = some v →
      (step.after env).data.value? ns key = some v) : step.Spares env P where
  saved path hpath := by simp [hsaved] at hpath
  kept _ ns key path _ hbefore := by
    obtain ⟨v, hv, hplace⟩ := Option.bind_eq_some_iff.mp hbefore
    rw [StoreData.Refers, hvalues ns key v hv]
    exact hplace

theorem snapshot_data (h : (StoreCall.snapshot ns).perform env actor s = (r, t)) :
    t.data = s.data := by
  cases StoreCall.perform_ends h with
  | failed hn => exact hn.data
  | snapshot hn => exact hn.data
  | payload hc => rcases hc with hc | hc <;> cases hc
  | unlisted hc => rcases hc with hc | hc <;> cases hc

theorem snapshot_spares {step : StoreStep σ} (hcall : step.call = .snapshot ns)
    (P : StorePath → Prop) : step.Spares env P := by
  have hstep := step.perform_eq env
  rw [hcall] at hstep
  apply spares_of_values
  · rw [hcall]
    rfl
  · intro ns' key v hv
    rw [snapshot_data hstep]
    exact hv

theorem set_value? {v : Json} {opts : SetOptions} {ns' key' : String}
    (hother : ¬(ns' = ns ∧ key' = key))
    (h : (StoreCall.set ns key v opts).perform env actor s = (r, t)) :
    t.data.value? ns' key' = s.data.value? ns' key' := by
  cases StoreCall.perform_ends h with
  | failed hn => rw [hn.data]
  | kept _ hn => rw [hn.data]
  | set hn =>
    rw [hn.data, overwrite_data]
    exact StoreData.value?_write hother v
  | payload hc => rcases hc with hc | hc <;> cases hc
  | unlisted hc => rcases hc with hc | hc <;> cases hc

theorem set_spares {step : StoreStep σ} {v : Json} {opts : SetOptions}
    (hcall : step.call = .set ns key v opts) (hnew : step.before.data.value? ns key = none)
    (P : StorePath → Prop) : step.Spares env P := by
  have hstep := step.perform_eq env
  rw [hcall] at hstep
  apply spares_of_values
  · rw [hcall]
    rfl
  · intro ns' key' v' hv
    have hother : ¬(ns' = ns ∧ key' = key) := by
      rintro ⟨rfl, rfl⟩
      simp [hnew] at hv
    rw [set_value? hother hstep]
    exact hv

end Store

/-- A payload that could be read when a snapshot of its namespace was taken can be read again when
that snapshot has been restored, by whoever may do so, and it has the same bytes; provided that
nobody has written an object at the place that it refers to, or taken away a reference to that
place, if it refers to any. -/
theorem payloads_restored {env : Environment σ} {same : StorePath → StorePath → Prop}
    (henv : env.Separates same) {s u v : Store σ} {earlier later : List (StoreStep σ)}
    {step : StoreStep σ} (hs : s.Fresh) (h : s.Run env (earlier ++ step :: later) u)
    {ns key : String} {id : Nat} (hcall : step.call = .snapshot ns)
    (hanswer : step.answer env = .ok (.number id)) {loader : Actor} {bytes : Bytes}
    (hload : ((StoreCall.loadPayload ns key).perform env loader step.before).1 =
      .ok (.bytes bytes))
    (hformed : ∀ step' ∈ later, step'.call.Formed)
    (hspares : ∀ path, step.before.data.Refers ns key path →
      ∀ step' ∈ later, step'.Spares env (same path))
    {restorer reader : Actor}
    (hrestore : (StoreCall.restore id).perform env restorer u = (.ok (.flag true), v))
    (hmay : reader.May v.permissions (StorePath.mk ns key).resource .read) :
    ((StoreCall.loadPayload ns key).perform env reader v).1 = .ok (.bytes bytes) := by
  obtain ⟨hearlier, hlater⟩ := h.split
  have hbefore : step.before.Ordered := hs.ordered.run hearlier
  have hu : u.Ordered := hs.ordered.run h
  have hvalue : v.data.value? ns key = step.before.data.value? ns key := by
    have hsnap := h.snapshot_of_mem (List.mem_append_right _ List.mem_cons_self) hcall hanswer
    exact (Store.restore_restored hsnap hu hrestore).2.value? key
  have hbytes : ∀ o ∈ env.objects, ∀ path, step.before.data.Refers ns key path →
      o.bytes path v.outside = o.bytes path step.before.outside := by
    intro o ho path hrefers
    have hcalled : (StoreCall.restore id).Formed := trivial
    have hrestored := Store.perform_view (henv o ho path) hu.data hcalled hrestore nofun nofun
    have hrun : o.bytes path u.outside = o.bytes path step.before.outside := by
      apply Store.Run.view (henv o ho path) hbefore (.cons step hlater)
      intro step' hstep
      rcases List.mem_cons.mp hstep with rfl | hstep
      · exact ⟨by rw [hcall]; trivial, Store.snapshot_spares hcall _⟩
      · exact ⟨hformed step' hstep, hspares path hrefers step' hstep⟩
    exact hrestored.trans hrun
  rw [Store.loadPayload_may henv hmay, Store.payload_congr hvalue hbytes,
    Store.payload_of_load henv hload]
  rfl

/-- A store that has been given a picture, which it keeps among the objects. -/
def Store.pictured : Store ObjectStore.Objects :=
  (follow (.withObjects 0) (.blank .empty)
    [(.system, .savePayload "a" "k" (.ofBytes [1]) .dot)]).2

/-- The picture is read again when another key has been written. -/
theorem payloads_restored_dot :
    ∃ v, (StoreCall.restore 1).perform (.withObjects 0) .system
        (Store.follow (.withObjects 0) .pictured
          [(.system, .snapshot "a"), (.system, .set "a" "j" .null .default)]).2 =
        (.ok (.flag true), v) ∧
      ((StoreCall.loadPayload "a" "k").perform (.withObjects 0) .system v).1 =
        .ok (.bytes [1]) := by
  have hearlier := Store.follow_run (.withObjects 0) (.blank .empty)
    [(.system, .savePayload "a" "k" (.ofBytes [1]) .dot)]
  have hlater := Store.follow_run (.withObjects 0) .pictured
    [(.system, .snapshot "a"), (.system, .set "a" "j" .null .default)]
  have hload : ((StoreCall.loadPayload "a" "k").perform (.withObjects 0) .system .pictured).1 =
      .ok (.bytes [1]) := by rfl
  have hrestore : (StoreCall.restore 1).perform (.withObjects 0) .system
      (Store.follow (.withObjects 0) .pictured
        [(.system, .snapshot "a"), (.system, .set "a" "j" .null .default)]).2 =
      (.ok (.flag true), _) := Prod.ext (by rfl) rfl
  refine ⟨_, hrestore, ?_⟩
  apply payloads_restored (Environment.withObjects_separates 0) (Store.blank_fresh .empty)
    (hearlier.trans hlater) rfl (by rfl) hload _ _ hrestore (.inl rfl)
  · intro step hstep
    rw [List.mem_singleton.mp hstep]
    trivial
  · intro path _ step hstep
    rw [List.mem_singleton.mp hstep]
    exact Store.set_spares rfl (by rfl) _

/-- The object of a value that was deleted is gone, and does not come back with the snapshot. -/
theorem payloads_lost :
    let run := Store.follow (.withObjects 0) .pictured
      [(.system, .snapshot "a"), (.system, .delete "a" (some "k"))]
    ((StoreCall.loadPayload "a" "k").perform (.withObjects 0) .system .pictured).1 =
        .ok (.bytes [1]) ∧
      run.1.filterMap (·.taken? (.withObjects 0)) = [1] ∧
      ∃ v, (StoreCall.restore 1).perform (.withObjects 0) .system run.2 = (.ok (.flag true), v) ∧
        ((StoreCall.loadPayload "a" "k").perform (.withObjects 0) .system v).1 =
          .error (.object (.notFound "a" "k")) :=
  ⟨by rfl, by rfl, _, Prod.ext (by rfl) rfl, by rfl⟩

end Workflow
