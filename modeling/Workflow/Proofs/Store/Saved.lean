import Workflow.Proofs.Binary.Base64
import Workflow.Proofs.Storage.Returned
import Workflow.Proofs.Store.Payloads

/-!
# Payloads that are saved

A payload that was saved is read back. Its descriptor holds the bytes itself, or refers to an object
from which they are read: this is what saving leads to, and it is all that reading needs.
-/
namespace Workflow
open Attempt
variable {σ α : Type}

/-- The places for objects that there are: in memory or in a directory, each of them a part of what
lies outside. -/
inductive ObjectStore.Provided : ObjectStore σ → Prop
  | memory {p : Part σ Objects} : p.Lawful → Provided (ObjectStore.memory.through p)
  | directory {p : Part σ Tree} (root : Tree.Path) (chunk : Nat) : p.Lawful →
    Provided ((ObjectStore.directory root chunk).through p)

theorem ObjectStore.Provided.returns {o : ObjectStore σ} (h : o.Provided) : o.Returns := by
  cases h with
  | memory hp => exact memory_returns.through hp
  | directory root chunk hp => exact (directory_returns root chunk).through hp

/-- A descriptor describes bytes that were saved at a place: it holds them itself, or refers to that
place, where they are. -/
inductive Descriptor.Describes (env : Environment σ) (x : σ) (place : StorePath)
    (metadata : BinaryMetadata) (payload : Bytes) : Descriptor → Prop
  | inline : Describes env x place metadata payload
      (.ofInline (Base64.encodeText payload) metadata)
  | referenced {o opened} : o ∈ env.objects →
      (o.openSource place.ns place.key x).1 = .ok opened → opened.drain = .ok payload →
      Describes env x place metadata payload (.ofReference place metadata)

namespace Descriptor.Describes
variable {env : Environment σ} {x y : σ} {place : StorePath} {metadata : BinaryMetadata}
  {payload : Bytes} {d : Descriptor}

theorem consistent (h : d.Describes env x place metadata payload) : d.isConsistent = true := by
  cases h <;> rfl

theorem marker (h : d.Describes env x place metadata payload) : d.marker = typeMarker := by
  cases h <;> rfl

theorem decode (hsized : metadata.Sized) (hfinite : ∀ x ∈ metadata.duration, x.isFinite = true)
    (h : d.Describes env x place metadata payload) : Descriptor.decode d.toJson = .ok d := by
  have hmetadata : d.metadata = metadata := by cases h <;> rfl
  have hread := decode_toJson (hmetadata ▸ hsized)
  rwa [BinaryMetadata.settled_of_finite (hmetadata ▸ hfinite)] at hread

theorem refers (hread : Descriptor.decode d.toJson = .ok d)
    (h : d.Describes env x place metadata payload) :
    referenceOf d.toJson = if d.location = .referenced then some place else none := by
  have hmarked : isMarked d.toJson = true := by
    rw [isMarked_toJson, h.marker]
    rfl
  rw [referenceOf, hmarked, hread]
  cases h <;> rfl

/-- What a descriptor refers to is read as before, so it still describes the same. -/
theorem congr (h : d.Describes env x place metadata payload)
    (hview : ∀ o ∈ env.objects, d.location = .referenced →
      (o.openSource place.ns place.key y).1 = (o.openSource place.ns place.key x).1) :
    d.Describes env y place metadata payload := by
  cases h with
  | inline => exact .inline
  | referenced ho hopen hdrain => exact .referenced ho ((hview _ ho rfl).trans hopen) hdrain

end Descriptor.Describes

namespace Store
variable {env : Environment σ} {actor : Actor} {s t : Store σ} {ns key : String}
  {metadata : BinaryMetadata} {payload : Bytes} {d : Descriptor}

theorem descriptorOf_toJson (path : StorePath) (hread : Descriptor.decode d.toJson = .ok d)
    (hmarker : d.marker = Descriptor.typeMarker) (hconsistent : d.isConsistent = true) :
    descriptorOf path (some d.toJson) = .ok d := by
  have hmarked : Descriptor.isMarked d.toJson = true := by
    rw [Descriptor.isMarked_toJson, hmarker]
    rfl
  exact descriptorOf_of_decode hmarked hread hconsistent

theorem fetch_inline {path : StorePath} {found : Option Json} {held : Bytes → α}
    {referred : ObjectStore σ → StorePath → Attempt σ ObjectError α} {x : σ}
    (hd : descriptorOf path found = .ok (.ofInline (Base64.encodeText payload) metadata)) :
    (fetch env path found held referred x).1 = .ok (held payload) := by
  rw [fetch, hd]
  change ((Base64.decodeText (Base64.encodeText payload)).mapError _).map held = _
  rw [Base64.decodeText_encodeText]
  rfl

theorem fetch_referenced {path place : StorePath} {found : Option Json} {held : Bytes → α}
    {referred : ObjectStore σ → StorePath → Attempt σ ObjectError α} {x : σ} {o : ObjectStore σ}
    (hd : descriptorOf path found = .ok (.ofReference place metadata)) (ho : o ∈ env.objects) :
    (fetch env path found held referred x).1 = (referred o place x).1.mapError .object := by
  rw [fetch, hd, Option.mem_def.mp ho]
  rfl

/-- Where the value of a key describes a payload, those who may read it get what is fetched for this
value, as long as the trail does not disturb the object. -/
theorem readPayload_may {operation : String} {place : StorePath} {held : Bytes → α}
    {referred : ObjectStore σ → StorePath → Attempt σ ObjectError α}
    (hvalue : s.data.value? ns key = some d.toJson)
    (hread : Descriptor.decode d.toJson = .ok d)
    (h : d.Describes env s.outside place metadata payload)
    (hsink : ∀ o ∈ env.objects, ∀ k ∈ env.sink, k.Spares fun x => (referred o place x).1)
    (hmay : actor.May s.permissions (StorePath.mk ns key).resource .read) :
    (readPayload env actor operation ns key held referred s).1 =
      (fetch env ⟨ns, key⟩ (some d.toJson) held referred s.outside).1 := by
  have hplace (place' : StorePath) (hrefers : s.data.Refers ns key place') : place' = place := by
    rw [StoreData.Refers, hvalue, Option.bind_some, h.refers hread] at hrefers
    split at hrefers
    · exact (Option.some.inj hrefers).symm
    · cases hrefers
  rcases hanswer : readPayload env actor operation ns key held referred s with ⟨found, t⟩
  obtain ⟨hno, -⟩ | rfl := readPayload_answer
    (fun o ho place' hrefers k hk => hplace place' hrefers ▸ hsink o ho k hk) hanswer
  · exact absurd hmay hno
  · rw [hvalue]

/-- A payload that is described is loaded, and opened as a source that delivers it. -/
theorem payload_read {place : StorePath} (hvalue : s.data.value? ns key = some d.toJson)
    (hread : Descriptor.decode d.toJson = .ok d)
    (h : d.Describes env s.outside place metadata payload)
    (hsink : ∀ o ∈ env.objects, ∀ k ∈ env.sink,
      k.Spares fun x => (o.openSource place.ns place.key x).1)
    (hmay : actor.May s.permissions (StorePath.mk ns key).resource .read) :
    ((StoreCall.loadPayload ns key).perform env actor s).1 = .ok (.bytes payload) ∧
      ∃ opened, ((StoreCall.openPayload ns key).perform env actor s).1 = .ok (.source opened) ∧
        opened.drain = .ok payload := by
  have hloads (o : ObjectStore σ) (ho : o ∈ env.objects) (k : Sink σ) (hk : k ∈ env.sink) :
      k.Spares fun x => (o.load place.ns place.key x).1 := by
    intro e x
    simp only [ObjectStore.load_result, hsink o ho k hk e x]
  have hload : (loadPayload env actor ns key s).1 = _ :=
    readPayload_may hvalue hread h hloads hmay
  have hopen : (openPayload env actor ns key s).1 = _ :=
    readPayload_may hvalue hread h hsink hmay
  rw [StoreCall.perform, StoreCall.perform, StoreCall.answer_eq, StoreCall.answer_eq, hload, hopen]
  have hd := descriptorOf_toJson ⟨ns, key⟩ hread h.marker h.consistent
  cases h with
  | inline =>
    rw [fetch_inline hd, fetch_inline hd]
    exact ⟨rfl, _, rfl, Source.drain_ofBytes payload⟩
  | @referenced o opened ho hobject hdrain =>
    rw [fetch_referenced hd ho, fetch_referenced hd ho, ObjectStore.load_result, hobject]
    refine ⟨?_, opened, rfl, hdrain⟩
    change ((opened.drain.mapError ObjectError.file).mapError StoreError.object).map _ = _
    rw [hdrain]
    rfl

/-- The descriptor of a payload that was written describes what the source delivers, and it holds
what is shorter than the threshold. -/
theorem Writes.described {source : Source} {w : Written}
    (hobjects : ∀ o ∈ env.objects, o.Returns) (h : Writes env ns key source metadata s (.ok w) t) :
    ∃ payload, source.drain = .ok payload ∧
      (w.descriptor.location = .inline ↔ payload.length < env.inlineThreshold) ∧
      w.descriptor.Describes env t.outside ⟨ns, key⟩ metadata payload := by
  cases h with
  | @inline head rest _ htake hless =>
    obtain hall | ⟨-, rfl⟩ := Source.takeUpTo_length htake
    · exact absurd hall (Nat.ne_of_lt hless)
    · have hdrain := Source.drain_takeUpTo htake
      change Except.ok (head ++ []) = _ at hdrain
      rw [List.append_nil] at hdrain
      exact ⟨head, hdrain.symm, iff_of_true rfl hless, .inline⟩
  | @referenced head rest o size x _ htake hlong ho hsave =>
    obtain ⟨payload, opened, hwritten, hopen, hdrain⟩ := hobjects o ho _ _ _ _ _ _ hsave
    have hsource : source.drain = .ok payload := (Source.drain_takeUpTo htake).symm.trans hwritten
    have hlength := (Source.length_lt_iff htake hsource).not.mp hlong
    exact ⟨payload, hsource, iff_of_false nofun hlength, .referenced ho hopen hdrain⟩

/-- The value of a payload that was written refers to the place of its key, if it refers to any. -/
theorem Writes.refers {source : Source} {w : Written} (hsized : metadata.Sized)
    (h : Writes env ns key source metadata s (.ok w) t) {place : StorePath}
    (hrefers : Descriptor.referenceOf w.descriptor.toJson = some place) : place = ⟨ns, key⟩ := by
  cases h with
  | inline =>
    rw [Descriptor.referenceOf_ofInline _ hsized] at hrefers
    cases hrefers
  | referenced =>
    rw [Descriptor.referenceOf_ofReference _ hsized] at hrefers
    exact (Option.some.inj hrefers).symm

/-- A descriptor still describes its payload when it has taken the place of a value that referred
to the place of its key at most: then there is no object to release but the one of the payload. -/
theorem overwrite_described (hread : Descriptor.decode d.toJson = .ok d)
    (hold : ∀ place, s.data.Refers ns key place → place = ⟨ns, key⟩)
    (h : d.Describes env s.outside ⟨ns, key⟩ metadata payload) :
    d.Describes env (s.overwrite env ns key d.toJson).outside ⟨ns, key⟩ metadata payload := by
  apply h.congr
  intro o ho hlocation
  have hrefers : Descriptor.referenceOf d.toJson = some ⟨ns, key⟩ := by
    rw [h.refers hread, if_pos hlocation]
  obtain ⟨-, hkept⟩ | ⟨place, hplace, hother, -⟩ := release_cases env (s.data.value? ns key)
    d.toJson (s.mapData (·.write s.now ns key d.toJson))
  · rw [overwrite, hkept]
    rfl
  · exact absurd (hold place hplace ▸ hrefers) hother

end Store

/-- A value that was put under a key by saving a payload there, in whatever store. -/
inductive SavedAt (ns key : String) : Json → Prop
  | intro {σ : Type} {env : Environment σ} {actor : Actor} {source : Source}
    {metadata : BinaryMetadata} {s t : Store σ} {d : Descriptor} : metadata.Sized →
    (StoreCall.savePayload ns key source metadata).perform env actor s = (.ok (.descriptor d), t) →
    SavedAt ns key d.toJson

theorem SavedAt.refers {ns key : String} {v : Json} (h : SavedAt ns key v) {place : StorePath}
    (hrefers : Descriptor.referenceOf v = some place) : place = ⟨ns, key⟩ := by
  obtain ⟨hsized, h⟩ := h
  cases StoreCall.perform_ends h with
  | payload hc => rcases hc with hc | hc <;> cases hc
  | savePayload hw => exact (Store.writePayload_cases hw).refers hsized hrefers

/-- A payload that was saved is read back, however the source delivers it, whatever is known of it
and whether its descriptor holds it, which is so if it is shorter than the threshold: the value of
the key is the descriptor and is read as such, and those who may read the key load the payload,
or open a source that delivers it. What the key held before may be anything, but if it refers to an
object it must have been saved there; and the trail must not disturb the object. -/
theorem payload_saved {σ : Type} {env : Environment σ} {actor : Actor} {ns key : String}
    {source : Source} {metadata : BinaryMetadata} {s t : Store σ} {d : Descriptor}
    (hobjects : ∀ o ∈ env.objects, o.Provided)
    (hsink : ∀ o ∈ env.objects, ∀ k ∈ env.sink, k.Spares fun x => (o.openSource ns key x).1)
    (hsized : metadata.Sized) (hfinite : ∀ x ∈ metadata.duration, x.isFinite = true)
    (hold : ∀ v, s.data.value? ns key = some v →
      Descriptor.referenceOf v = none ∨ SavedAt ns key v)
    (h : (StoreCall.savePayload ns key source metadata).perform env actor s =
      (.ok (.descriptor d), t)) :
    ∃ payload, source.drain = .ok payload ∧
      (d.location = .inline ↔ payload.length < env.inlineThreshold) ∧
      t.data.value? ns key = some d.toJson ∧ Descriptor.decode d.toJson = .ok d ∧
      d.isConsistent = true ∧
      ∀ reader : Actor, reader.May t.permissions (StorePath.mk ns key).resource .read →
        ((StoreCall.loadPayload ns key).perform env reader t).1 = .ok (.bytes payload) ∧
        ∃ opened, ((StoreCall.openPayload ns key).perform env reader t).1 =
          .ok (.source opened) ∧ opened.drain = .ok payload := by
  cases StoreCall.perform_ends h with
  | payload hc => rcases hc with hc | hc <;> cases hc
  | @savePayload _ _ _ _ w u _ hw hn =>
    have hwrites := Store.writePayload_cases hw
    obtain ⟨payload, hsource, hlocation, hdescribed⟩ :=
      hwrites.described fun o ho => (hobjects o ho).returns
    have hread := hdescribed.decode hsized hfinite
    have hown (place : StorePath) (hrefers : u.data.Refers ns key place) :
        place = ⟨ns, key⟩ := by
      rw [hwrites.data] at hrefers
      obtain ⟨v, hv, hplace⟩ := Option.bind_eq_some_iff.mp hrefers
      obtain hnone | hsaved := hold v hv
      · rw [hnone] at hplace
        cases hplace
      · exact hsaved.refers hplace
    have hvalue : t.data.value? ns key = some w.descriptor.toJson := by
      rw [hn.data, Store.overwrite_data, StoreData.value?_write_self]
    have hafter : w.descriptor.Describes env t.outside ⟨ns, key⟩ metadata payload := by
      apply (Store.overwrite_described hread hown hdescribed).congr
      intro o ho _
      exact hn.view (hsink o ho)
    refine ⟨payload, hsource, hlocation, hvalue, hread, hdescribed.consistent, ?_⟩
    intro reader hmay
    exact Store.payload_read hvalue hread hafter hsink hmay

/-- A payload that comes in pieces takes the place of the picture and is read again. -/
theorem payload_saved_pieces :
    let call := StoreCall.savePayload "a" "k" [.piece [1], .interrupted, .piece [2, 3]] .dot
    ∃ d t, call.perform (.withObjects 2) .system .pictured = (.ok (.descriptor d), t) ∧
      d.location = .referenced ∧
      ((StoreCall.loadPayload "a" "k").perform (.withObjects 2) .system t).1 =
        .ok (.bytes [1, 2, 3]) := by
  have hprovided : ObjectStore.memory.Provided := .memory (p := .whole) fun _ _ => rfl
  have hpictured : (StoreCall.savePayload "a" "k" (.ofBytes [1]) .dot).perform (.withObjects 0)
      .system (.blank .empty) = (.ok (.descriptor (.ofReference ⟨"a", "k"⟩ .dot)), .pictured) :=
    Prod.ext (by rfl) rfl
  have hold (v : Json) (hv : Store.pictured.data.value? "a" "k" = some v) :
      Descriptor.referenceOf v = none ∨ SavedAt "a" "k" v := by
    obtain rfl := Option.some.inj hv
    exact .inr (.intro BinaryMetadata.dot_sized hpictured)
  have hsave : (StoreCall.savePayload "a" "k" [.piece [1], .interrupted, .piece [2, 3]]
      .dot).perform (.withObjects 2) .system .pictured =
        (.ok (.descriptor (.ofReference ⟨"a", "k"⟩ .dot)), _) := Prod.ext (by rfl) rfl
  obtain ⟨payload, hdrain, -, -, -, -, hread⟩ := payload_saved
    (fun o ho => Option.some.inj ho ▸ hprovided) nofun BinaryMetadata.dot_sized nofun hold hsave
  cases hdrain
  exact ⟨_, _, hsave, rfl, (hread .system (.inl rfl)).1⟩

end Workflow
