import Workflow.Proofs.Storage.Apart
import Workflow.Proofs.Storage.Name
import Workflow.Proofs.Store.Confidential
import Workflow.Proofs.Store.Saved

/-!
# Payloads that do not meet

Objects in files are named by the last parts of namespace and key. What is done to the payload of
one key leaves alone those of all others that it shares no file with; and it leaves alone those it
shares a file with as long as no object is written and no reference to one is taken away.
-/
namespace Workflow
open Attempt
variable {σ : Type}

/-- Objects are kept in the files of a directory, which the sink leaves alone. -/
structure Environment.FilesIn (env : Environment σ) (p : Part σ Tree) (root : Tree.Path)
    (chunk : Nat) : Prop where
  lawful : p.Lawful
  objects : env.objects = some ((ObjectStore.directory root chunk).through p)
  sink : ∀ k ∈ env.sink, k.Spares p.get

/-- A value that was put under a key by saving a payload there, with whatever store, but in an
environment that is given. -/
inductive SavedIn (env : Environment σ) (path : StorePath) : Json → Prop
  | intro {actor : Actor} {source : Source} {metadata : BinaryMetadata} {s t : Store σ}
    {d : Descriptor} : metadata.Sized →
    (StoreCall.savePayload path.ns path.key source metadata).perform env actor s =
      (.ok (.descriptor d), t) →
    SavedIn env path d.toJson

/-- If the value of a key refers to an object, then it was put there by saving a payload. -/
def Store.Owns (env : Environment σ) (path : StorePath) (s : Store σ) : Prop :=
  ∀ v, s.data.value? path.ns path.key = some v →
    Descriptor.referenceOf v = none ∨ SavedIn env path v

/-- A call saves the payload of a key, deletes the key or puts another value in its place. -/
inductive StoreCall.Replaces (path : StorePath) : StoreCall → Prop
  | save {source metadata} : metadata.Sized →
    Replaces path (.savePayload path.ns path.key source metadata)
  | set (v : Json) (opts : SetOptions) : Replaces path (.set path.ns path.key v opts)
  | delete : Replaces path (.delete path.ns (some path.key))

namespace Environment.FilesIn
variable {env : Environment σ} {p : Part σ Tree} {root : Tree.Path} {chunk : Nat}
  {path : StorePath} {o : ObjectStore σ}

theorem eq_of_mem (henv : env.FilesIn p root chunk) (ho : o ∈ env.objects) :
    o = (ObjectStore.directory root chunk).through p :=
  Option.some.inj ((Option.mem_def.mp ho).symm.trans henv.objects)

theorem spares_bytes (henv : env.FilesIn p root chunk) (ho : o ∈ env.objects) (path : StorePath) :
    ∀ k ∈ env.sink, k.Spares (o.bytes path) := by
  intro k hk e x
  rw [henv.eq_of_mem ho, ObjectStore.bytes_through, ObjectStore.bytes_through,
    henv.sink k hk e x]

/-- The bytes of an object concern the paths that it shares a file with, if nothing is asked of the
backend, which may work on the same files. -/
theorem onlyAt (henv : env.FilesIn p root chunk) (ho : o ∈ env.objects)
    (hfits : ObjectStore.Fits root path) :
    ({ env with backend := none } : Environment σ).OnlyAt path.SameFile (o.bytes path) where
  objects o' ho' := by
    rw [henv.eq_of_mem ho, henv.eq_of_mem ho']
    exact ObjectStore.directory_onlyAt henv.lawful hfits chunk
  backend b hb := absurd hb (Option.not_mem_none b)
  sink := henv.spares_bytes ho path

end Environment.FilesIn

namespace SavedIn
variable {env : Environment σ} {p : Part σ Tree} {root : Tree.Path} {chunk : Nat}
  {path place : StorePath} {v : Json}

theorem savedAt (h : SavedIn env path v) : SavedAt path.ns path.key v := by
  obtain ⟨hsized, h⟩ := h
  exact .intro hsized h

/-- Where a payload was saved that is kept in a file, the names of the file fit. -/
theorem fits (henv : env.FilesIn p root chunk) (h : SavedIn env path v)
    (hrefers : Descriptor.referenceOf v = some place) : ObjectStore.Fits root path := by
  obtain ⟨hsized, h⟩ := h
  cases StoreCall.perform_ends h with
  | payload hc => rcases hc with hc | hc <;> cases hc
  | savePayload hw =>
    cases Store.writePayload_cases hw with
    | inline =>
      rw [Descriptor.referenceOf_ofInline _ hsized] at hrefers
      cases hrefers
    | @referenced head rest o size x _ _ _ ho hsave =>
      rw [henv.eq_of_mem ho] at hsave
      rcases hfile : ObjectStore.saveFile root
        (if chunk = 0 then ObjectStore.defaultChunk else chunk) path.ns path.key
        (.piece head :: rest) (p.get _) with ⟨r, u⟩
      have hresult := congrArg Prod.fst hsave
      have hinner : r = .ok size := (congrArg Prod.fst hfile).symm.trans hresult
      exact ObjectStore.fits_of_saveFile (hinner ▸ hfile)

end SavedIn

namespace Store
variable {env : Environment σ} {p : Part σ Tree} {root : Tree.Path} {chunk : Nat}
  {own other path place : StorePath} {s t u : Store σ}

namespace Owns

theorem congr (h : s.Owns env path)
    (hvalue : t.data.value? path.ns path.key = s.data.value? path.ns path.key) :
    t.Owns env path := by
  intro v hv
  exact h v (hvalue.symm.trans hv)

/-- A value that refers to an object refers to the one at the place of its own key. -/
theorem refers (h : s.Owns env path) (hrefers : s.data.Refers path.ns path.key place) :
    place = path ∧ ∃ v, SavedIn env path v ∧ Descriptor.referenceOf v = some place := by
  obtain ⟨v, hv, hplace⟩ := Option.bind_eq_some_iff.mp hrefers
  obtain hnone | hsaved := h v hv
  · rw [hnone] at hplace
    cases hplace
  · exact ⟨hsaved.savedAt.refers hplace, v, hsaved, hplace⟩

end Owns

/-- Those who may not read a payload get the same answer from all stores with the same
permissions. -/
theorem loadPayload_of_not_may {ns key : String} {reader : Actor}
    (hpermissions : t.permissions = s.permissions)
    (hno : ¬reader.May s.permissions (StorePath.mk ns key).resource .read) :
    ((StoreCall.loadPayload ns key).perform env reader t).1 =
      ((StoreCall.loadPayload ns key).perform env reader s).1 := by
  apply StoreCall.answer_congr
  exact (readPayload_of_not_may (hpermissions.symm ▸ hno)).trans (readPayload_of_not_may hno).symm

/-- All that the payload of a key depends on is the same: who may read it, the value, and the bytes
of the object that the value refers to. -/
structure SamePayload (env : Environment σ) (path : StorePath) (s t : Store σ) : Prop where
  permissions : t.permissions = s.permissions
  value : t.data.value? path.ns path.key = s.data.value? path.ns path.key
  bytes : ∀ o ∈ env.objects, ∀ place, s.data.Refers path.ns path.key place →
    o.bytes place t.outside = o.bytes place s.outside

namespace SamePayload

theorem refers (h : SamePayload env path s t) :
    t.data.Refers path.ns path.key place ↔ s.data.Refers path.ns path.key place := by
  rw [StoreData.Refers, StoreData.Refers, h.value]

theorem trans (h : SamePayload env path s t) (k : SamePayload env path t u) :
    SamePayload env path s u where
  permissions := k.permissions.trans h.permissions
  value := k.value.trans h.value
  bytes o ho place hrefers :=
    (k.bytes o ho place (h.refers.mpr hrefers)).trans (h.bytes o ho place hrefers)

/-- The same payload is loaded, or refused in the same way. -/
theorem load (henv : env.FilesIn p root chunk) (h : SamePayload env path s t) (reader : Actor) :
    ((StoreCall.loadPayload path.ns path.key).perform env reader t).1 =
      ((StoreCall.loadPayload path.ns path.key).perform env reader s).1 := by
  have hsink (v : Store σ) : ∀ o ∈ env.objects, ∀ place, v.data.Refers path.ns path.key place →
      ∀ k ∈ env.sink, k.Spares (o.bytes place) := fun o ho place _ => henv.spares_bytes ho place
  by_cases hmay : reader.May s.permissions (StorePath.mk path.ns path.key).resource .read
  · rw [loadPayload_of_may (hsink s) hmay,
      loadPayload_of_may (hsink t) (h.permissions.symm ▸ hmay), payload_congr h.value h.bytes]
  · exact loadPayload_of_not_may h.permissions hmay

end SamePayload

theorem Guarded.beside {stored : σ → String → String → Option Json} {P : String → String → Prop}
    {actor : Actor} {α : Type} {r : Except StoreError α}
    (h : Guarded env stored actor P s (r, t)) :
    t.permissions = s.permissions ∧
      ∀ ns key, ¬P ns key → t.data.value? ns key = s.data.value? ns key := by
  cases h with
  | refused hd =>
    obtain ⟨entry, x, -, -, ht⟩ := hd
    rw [ht]
    exact ⟨rfl, fun _ _ _ => rfl⟩
  | passed _ hc => exact ⟨hc.permissions, hc.held⟩

end Store

namespace StoreCall.Replaces
variable {env : Environment σ} {p : Part σ Tree} {root : Tree.Path} {chunk : Nat}
  {own other : StorePath} {actor : Actor} {call : StoreCall} {s t : Store σ}
  {r : Except StoreError StoreAnswer} {step : StoreStep σ}

theorem formed (h : call.Replaces own) : call.Formed := by
  cases h with
  | save hsized => exact hsized
  | set => trivial
  | delete => trivial

theorem ne_space (h : call.Replaces own) (ns : String) : call ≠ .delete ns none := by
  rintro rfl
  cases h

/-- Nothing is asked of the backend. -/
theorem perform_eq (h : call.Replaces own) (env : Environment σ) (actor : Actor) :
    call.perform { env with backend := none } actor = call.perform env actor := by
  cases h <;> rfl

open Store in
/-- Nobody may do more or less than before, and no other key has another value. -/
theorem beside (h : call.Replaces own) (hcall : call.perform env actor s = (r, t)) :
    t.permissions = s.permissions ∧ ∀ ns key, ¬(ns = own.ns ∧ key = own.key) →
      t.data.value? ns key = s.data.value? ns key := by
  have hguarded : Guarded env (fun _ _ _ => none) actor
      (fun ns key => ns = own.ns ∧ key = own.key) s (call.perform env actor s) := by
    cases h with
    | save =>
      exact (savePayload_guarded env.keeps_nothing _ _ fun _ => ⟨rfl, rfl⟩).bind
        fun _ => .pure trivial
    | set v opts =>
      exact (set_guarded env.keeps_nothing v opts fun _ => ⟨rfl, rfl⟩).bind fun _ => .pure trivial
    | delete =>
      refine (delete_guarded env.keeps_nothing fun _ ns key hw => ?_).bind fun _ => .pure trivial
      exact ⟨hw.1, hw.2 own.key rfl⟩
  rw [hcall] at hguarded
  exact hguarded.beside

/-- Saving a payload makes its key own the value, and deleting a key, or putting a value there that
refers to no object, keeps it so. -/
theorem owns (h : call.Replaces own)
    (hplain : ∀ v opts, call = .set own.ns own.key v opts → Descriptor.referenceOf v = none)
    (howns : s.Owns env own) (hcall : call.perform env actor s = (r, t)) : t.Owns env own := by
  intro v hv
  cases h with
  | save hsized =>
    cases StoreCall.perform_ends hcall with
    | failed hn => exact howns v (hn.data ▸ hv)
    | unwritten hw hn =>
      rw [hn.data, (Store.writePayload_cases hw).data] at hv
      exact howns v hv
    | savePayload hw hn =>
      rw [hn.data, Store.overwrite_data, StoreData.value?_write_self] at hv
      obtain rfl := Option.some.inj hv
      exact .inr (.intro hsized hcall)
    | payload hc => rcases hc with hc | hc <;> cases hc
    | unlisted hc => rcases hc with hc | hc <;> cases hc
  | set w opts =>
    cases StoreCall.perform_ends hcall with
    | failed hn => exact howns v (hn.data ▸ hv)
    | kept _ hn => exact howns v (hn.data ▸ hv)
    | set hn =>
      rw [hn.data, Store.overwrite_data, StoreData.value?_write_self] at hv
      obtain rfl := Option.some.inj hv
      exact .inl (hplain w opts rfl)
    | payload hc => rcases hc with hc | hc <;> cases hc
    | unlisted hc => rcases hc with hc | hc <;> cases hc
  | delete =>
    have removed {u : Store σ} {x : Except StoreError Unit}
        (hn : Store.Noted env actor (s.mapData (·.remove own.ns (some own.key))) u)
        (hd : Store.dropObjects env
          (Store.referencesIn (some own.key) (s.data.values.find own.ns (some own.key))) u =
            (x, t)) : t.data.value? own.ns own.key = none := by
      rw [(Store.dropped_elsewhere hd).data, hn.data]
      exact StoreData.value?_remove_self fun k hk => Option.some.inj hk
    cases StoreCall.perform_ends hcall with
    | failed hn => exact howns v (hn.data ▸ hv)
    | delete hn hd => simp [removed hn hd] at hv
    | undeleted hn hd => simp [removed hn hd] at hv
    | payload hc => rcases hc with hc | hc <;> cases hc
    | unlisted hc => rcases hc with hc | hc <;> cases hc

theorem saved (h : call.Replaces own) {path : StorePath} (hpath : path ∈ call.saved? r) :
    path = own := by
  unfold StoreCall.saved? at hpath
  split at hpath
  · split at hpath
    · cases h
      exact (Option.some.inj hpath).symm
    · cases hpath
  · cases hpath

/-- A call about one key writes no object in the files of other keys, and takes no reference to them
away. -/
theorem spares (h : step.call.Replaces own) (howns : step.before.Owns env own)
    (hfile : ¬other.SameFile own) : step.Spares env other.SameFile where
  saved path hpath := by
    rw [h.saved hpath]
    exact hfile
  kept _ ns key path hshared hrefers := by
    obtain ⟨-, hvalues⟩ := h.beside (step.perform_eq env)
    by_cases hkey : ns = own.ns ∧ key = own.key
    · obtain ⟨rfl, rfl⟩ := hkey
      obtain ⟨rfl, -⟩ := howns.refers hrefers
      exact absurd hshared hfile
    · rw [StoreData.Refers, hvalues ns key hkey]
      exact hrefers

open Store in
/-- A call about one key leaves the payload of another one alone, unless they share a file and an
object is written or a reference to one is taken away. -/
theorem samePayload (henv : env.FilesIn p root chunk) (h : step.call.Replaces own)
    (hne : own ≠ other) (hother : step.before.Owns env other)
    (hspares : (∀ place, ¬step.before.data.Refers other.ns other.key place) ∨
      step.Spares env other.SameFile) :
    SamePayload env other step.before (step.after env) := by
  obtain ⟨hpermissions, hvalues⟩ := h.beside (step.perform_eq env)
  refine ⟨hpermissions, hvalues other.ns other.key ?_, fun o ho place hrefers => ?_⟩
  · rintro ⟨hns, hkey⟩
    exact hne (congrArg₂ StorePath.mk hns.symm hkey.symm)
  · obtain hnone | hspares := hspares
    · exact absurd hrefers (hnone place)
    · obtain ⟨rfl, v, hsaved, hplace⟩ := hother.refers hrefers
      -- the backend may keep values in the same files, but is not asked for anything
      have hstep : step.call.perform { env with backend := none } step.actor step.before =
          (step.answer env, step.after env) := by
        rw [h.perform_eq env]
        exact step.perform_eq env
      have hkey (ns : String) (hspace : step.call = .delete ns none) :
          step.before.data.Ordered := absurd hspace (h.ne_space ns)
      exact perform_view_of_ordered (henv.onlyAt ho (hsaved.fits henv hplace)) hkey h.formed hstep
        hspares.saved hspares.kept

end StoreCall.Replaces

namespace Store
variable {env : Environment σ} {p : Part σ Tree} {root : Tree.Path} {chunk : Nat}
  {own other : StorePath} {s : Store σ}

theorem SamePayload.refl (env : Environment σ) (path : StorePath) (s : Store σ) :
    SamePayload env path s s := ⟨rfl, rfl, fun _ _ _ _ => rfl⟩

theorem follow_samePayload (henv : env.FilesIn p root chunk) (hne : own ≠ other)
    {calls : List (Actor × StoreCall)}
    (hcalls : ∀ step ∈ (follow env s calls).1,
      step.call.Replaces own ∧ step.before.Owns env own)
    (hother : s.Owns env other)
    (hshared : other.SameFile own → (∀ place, ¬s.data.Refers other.ns other.key place) ∨
      ∀ step ∈ (follow env s calls).1, step.Spares env other.SameFile) :
    SamePayload env other s (follow env s calls).2 := by
  induction calls generalizing s with
  | nil => exact .refl env other s
  | cons request calls ih =>
    let step : StoreStep σ := ⟨s, request.1, request.2⟩
    obtain ⟨⟨hcall, howns⟩, hrest⟩ := List.forall_mem_cons.mp hcalls
    have hspares : (∀ place, ¬s.data.Refers other.ns other.key place) ∨
        step.Spares env other.SameFile := by
      by_cases hfile : other.SameFile own
      · exact (hshared hfile).imp_right fun h => h step List.mem_cons_self
      · exact .inr (hcall.spares howns hfile)
    have hstep : step.call.Replaces own := hcall
    have hfirst : SamePayload env other s (step.after env) :=
      hstep.samePayload henv hne hother hspares
    refine hfirst.trans (ih hrest (hother.congr hfirst.value) fun hfile => ?_)
    refine (hshared hfile).imp (fun h place hrefers => ?_) fun h next hnext => ?_
    · exact h place (hfirst.refers.mp hrefers)
    · exact h next (List.mem_cons_of_mem step hnext)

end Store

/-- What is loaded for a key is not changed by saving payloads under another key, deleting that key
or putting other values there, as often as one likes and whether the calls succeed or fail, as long
as what refers to an object was put under its key by saving a payload. This holds of two keys whose
last parts, or those of their namespaces, differ. If they do not differ, the objects of the keys are
in one file. Then it holds if the payload that is loaded is not in an object, or if no object is
written by the calls and no reference to one is taken away. -/
theorem payloads_isolated {env : Environment σ} {p : Part σ Tree} {root : Tree.Path} {chunk : Nat}
    (henv : env.FilesIn p root chunk) {own other : StorePath} (hne : own ≠ other) {s : Store σ}
    {calls : List (Actor × StoreCall)}
    (hcalls : ∀ step ∈ (Store.follow env s calls).1,
      step.call.Replaces own ∧ step.before.Owns env own)
    (hother : s.Owns env other)
    (hshared : other.SameFile own → (∀ place, ¬s.data.Refers other.ns other.key place) ∨
      ∀ step ∈ (Store.follow env s calls).1, step.Spares env other.SameFile)
    (reader : Actor) :
    ((StoreCall.loadPayload other.ns other.key).perform env reader
        (Store.follow env s calls).2).1 =
      ((StoreCall.loadPayload other.ns other.key).perform env reader s).1 :=
  (Store.follow_samePayload henv hne hcalls hother hshared).load henv reader

namespace Store
variable {env : Environment σ} {actor : Actor} {s t u : Store σ} {ns key : String}
  {source rest : Source} {metadata : BinaryMetadata}

theorem audited_of_ok {α : Type} {operation entityType entityId : String} {a : StoreAction σ α}
    {v : α} (h : a s = (.ok v, t)) :
    audited env actor operation entityType entityId a s = (.ok v, t) := by
  rw [audited, tryCatch_apply, h]

/-- What is written of a payload that is long enough and whose descriptor is valid is its object. -/
theorem writePayload_of_save {head : Bytes} {o : ObjectStore σ} {r : Except ObjectError Nat} {x : σ}
    {schemas : SchemaRegistry} (htake : source.takeUpTo env.inlineThreshold = .ok (head, rest))
    (hlong : ¬head.length < env.inlineThreshold)
    (hschemas : s.schemas.registerBinary metadata.format = .ok schemas)
    (hvalid : schemas.validate (Descriptor.schemaId metadata.format)
      (Descriptor.ofReference ⟨ns, key⟩ metadata).toJson = .ok ⟨⟩)
    (ho : o ∈ env.objects)
    (hsave : o.save ns key (.piece head :: rest) s.outside = (r, x)) :
    writePayload env ns key source metadata s =
      ((r.mapError .object).map (⟨.ofReference ⟨ns, key⟩ metadata, ·⟩),
        { s with schemas, outside := x }) := by
  have hobjects : objects env = pure o := by
    rw [objects, Option.mem_def.mp ho]
  have hregister : Attempt.alter (fun s : Store σ => do
      let schemas ← (s.schemas.registerBinary metadata.format).mapError StoreError.validation
      return ((), { s with schemas })) s = (.ok (), { s with schemas }) :=
    alter_of_ok (by rw [hschemas]; rfl)
  have hcheck : Attempt.look (fun s : Store σ => (s.schemas.validate
      (Descriptor.schemaId metadata.format) (Descriptor.ofReference ⟨ns, key⟩
        metadata).toJson).mapError StoreError.validation) { s with schemas } =
      (.ok (), { s with schemas }) := by
    rw [Attempt.look, hvalid]
    rfl
  have hread : Attempt.look (fun _ : Store σ => (source.takeUpTo env.inlineThreshold).mapError
      fun e => StoreError.object (.file e)) s = (.ok (head, rest), s) := by
    rw [Attempt.look, htake]
    rfl
  rw [writePayload, bind_of_ok hread]
  simp only [hlong, if_false, hobjects, pure_bind]
  rw [bind_of_ok hregister, bind_of_ok hcheck, bind_apply, tryOutside_apply]
  dsimp only
  rw [hsave]
  cases r <;> rfl

theorem savePayload_of_write {w : Written}
    (hmay : actor.May s.permissions (StorePath.mk ns key).resource .write)
    (hw : writePayload env ns key source metadata s = (.ok w, u)) :
    ∃ t, (StoreCall.savePayload ns key source metadata).perform env actor s =
        (.ok (.descriptor w.descriptor), t) ∧
      Noted env actor (u.overwrite env ns key w.descriptor.toJson) t := by
  rcases hsave : savePayload env actor ns key source metadata s with ⟨r, t⟩
  have h := hsave
  obtain ⟨descriptor, size⟩ := w
  rw [savePayload, bind_of_ok (authorize_of_may hmay), bind_of_ok (audited_of_ok hw)] at h
  dsimp only at h
  rw [get_bind, modify_bind, lift_bind] at h
  obtain ⟨rfl, hn⟩ := logged h fun _ => rfl
  exact ⟨t, bind_of_ok hsave, hn⟩

end Store

def Environment.withFiles (threshold : Nat) : Environment Tree :=
  ⟨none, some ((ObjectStore.directory ["data"] 0).through .whole), none, threshold⟩

theorem Environment.withFiles_filesIn (threshold : Nat) :
    (withFiles threshold).FilesIn .whole ["data"] 0 :=
  ⟨fun _ _ => rfl, rfl, fun k hk => absurd hk (Option.not_mem_none k)⟩

/-- What is known of formats when a picture has been saved. -/
def SchemaRegistry.pictures : SchemaRegistry :=
  ((Store.blank ()).schemas.registerBinary BinaryMetadata.dot.format).toOption.getD default

open Store in
/-- A picture is saved under a key that has no value. -/
theorem Store.picture_saved {s : Store Tree} {key : String} {b : UInt8} {size : Nat} {x : Tree}
    (hschemas : s.schemas.registerBinary BinaryMetadata.dot.format = .ok .pictures)
    (hvalid : SchemaRegistry.pictures.validate (Descriptor.schemaId BinaryMetadata.dot.format)
      (Descriptor.ofReference ⟨"a", key⟩ .dot).toJson = .ok ⟨⟩)
    (hnew : s.data.value? "a" key = none)
    (hsave : ((ObjectStore.directory ["data"] 0).through .whole).save "a" key
      [.piece [], .piece [b]] s.outside = (.ok size, x)) :
    ∃ t, (StoreCall.savePayload "a" key (.ofBytes [b]) .dot).perform (.withFiles 0) .system s =
        (.ok (.descriptor (.ofReference ⟨"a", key⟩ .dot)), t) ∧
      t.data = s.data.write s.now "a" key (Descriptor.ofReference ⟨"a", key⟩ .dot).toJson ∧
      t.schemas = .pictures ∧ t.outside = x := by
  have htake : (Source.ofBytes [b]).takeUpTo (Environment.withFiles 0).inlineThreshold =
      .ok ([], .ofBytes [b]) := by rfl
  have hobjects : (ObjectStore.directory ["data"] 0).through .whole ∈
      (Environment.withFiles 0).objects := by rfl
  have hwrite := writePayload_of_save htake (Nat.lt_irrefl 0) hschemas hvalid hobjects hsave
  have hmay : Actor.system.May s.permissions (StorePath.mk "a" key).resource .write := .inl rfl
  obtain ⟨t, ht, hn⟩ := savePayload_of_write hmay hwrite
  have hput : ({ s with schemas := .pictures, outside := x } : Store Tree).overwrite
      (.withFiles 0) "a" key (Descriptor.ofReference ⟨"a", key⟩ .dot).toJson =
      ({ s with schemas := .pictures, outside := x } : Store Tree).mapData
        (·.write s.now "a" key (Descriptor.ofReference ⟨"a", key⟩ .dot).toJson) := by
    rw [overwrite, hnew]
    rfl
  rw [hput] at hn
  have houtside : id t.outside = x := hn.view fun k hk => absurd hk (Option.not_mem_none k)
  refine ⟨t, ht, hn.data, ?_, houtside⟩
  rw [hn.eq_with]
  rfl

/-- Where a picture is referred to that is kept in a file, what is loaded is what is found there. -/
theorem Store.picture_read {s : Store Tree} {path place : StorePath}
    (hvalue : s.data.value? path.ns path.key = some (Descriptor.ofReference place .dot).toJson) :
    ((StoreCall.loadPayload path.ns path.key).perform (.withFiles 0) .system s).1 =
      ((((ObjectStore.directory ["data"] 0).through .whole).bytes place
        s.outside).mapError .object).map .bytes := by
  have hread : Descriptor.decode (Descriptor.ofReference place .dot).toJson =
      .ok (.ofReference place .dot) := Descriptor.decode_toJson BinaryMetadata.dot_sized
  have hsink : ∀ o ∈ (Environment.withFiles 0).objects, ∀ place,
      s.data.Refers path.ns path.key place →
        ∀ k ∈ (Environment.withFiles 0).sink, k.Spares (o.bytes place) :=
    fun o ho place _ => (Environment.withFiles_filesIn 0).spares_bytes ho place
  have hobject : (fetch (.withFiles 0) path (s.data.value? path.ns path.key) id
      (fun o place => o.load place.ns place.key) s.outside).1 =
      (((ObjectStore.directory ["data"] 0).through .whole).bytes place
        s.outside).mapError .object := by
    rw [hvalue]
    exact fetch_referenced (descriptorOf_toJson path hread rfl rfl) rfl
  rw [loadPayload_of_may hsink (.inl rfl), payload, hobject]

/-- A picture is loaded that is kept in a file. -/
theorem Store.picture_loaded {s : Store Tree} {key : String} {bytes : Bytes}
    (hvalue : s.data.value? "a" key = some (Descriptor.ofReference ⟨"a", key⟩ .dot).toJson)
    (hbytes : ((ObjectStore.directory ["data"] 0).through .whole).bytes ⟨"a", key⟩ s.outside =
      .ok bytes) :
    ((StoreCall.loadPayload "a" key).perform (.withFiles 0) .system s).1 = .ok (.bytes bytes) := by
  rw [@Store.picture_read s ⟨"a", key⟩ ⟨"a", key⟩ hvalue, hbytes]
  rfl

def Tree.ofPicture (name : String) (content : Bytes) : Tree :=
  .directory (.singleton "data" (.directory (.singleton "a" (.directory
    (.singleton name (.file content))))))

theorem objectPath_picture {key : String} (hkey : Storage.basename? key = some "k") :
    ObjectStore.objectPath ["data"] "a" key = .ok (["data", "a"], ["data", "a", "k"]) := by
  have hns : Storage.Nameable "a" := by decide
  rw [ObjectStore.objectPath, hkey, hns.basename? (by decide)]
  rfl

theorem save_picture {key : String} (hkey : Storage.basename? key = some "k") {t : Tree}
    (ht : t = .empty ∨ t = .ofPicture "k" [1]) (byte : UInt8) :
    ((ObjectStore.directory ["data"] 0).through .whole).save "a" key [.piece [], .piece [byte]] t =
      (.ok 1, .ofPicture "k" [byte]) := by
  change ObjectStore.saveFile ["data"] 65536 "a" key _ _ = _
  rw [ObjectStore.saveFile, objectPath_picture hkey, Source.drain_chunked]
  rcases ht with rfl | rfl <;> rfl

theorem bytes_picture {key : String} (hkey : Storage.basename? key = some "k") (bytes : Bytes) :
    ((ObjectStore.directory ["data"] 0).through .whole).bytes ⟨"a", key⟩ (.ofPicture "k" bytes) =
      .ok bytes := by
  have hopen : ObjectStore.openFile ["data"] 65536 "a" key (.ofPicture "k" bytes) =
      .ok ((Source.ofBytes bytes).chunked 65536) := by
    rw [ObjectStore.openFile, objectPath_picture hkey]
    rfl
  have hopened : ((ObjectStore.directory ["data"] 0).through .whole).openSource "a" key
      (.ofPicture "k" bytes) = (.ok ((Source.ofBytes bytes).chunked 65536), .ofPicture "k" bytes) :=
    congrArg (·, Tree.ofPicture "k" bytes) hopen
  rw [ObjectStore.bytes, ObjectStore.load, bind_apply, hopened]
  change (((Source.ofBytes bytes).chunked 65536).drain).mapError ObjectError.file = _
  rw [Source.drain_chunked, Source.drain_ofBytes]
  rfl

theorem Storage.basename?_pictures :
    Storage.basename? "d/k" = some "k" ∧ Storage.basename? "k" = some "k" ∧
      Storage.basename? "j" = some "j" := by
  have hk : Storage.Nameable "k" := by decide
  have hj : Storage.Nameable "j" := by decide
  exact ⟨hk.basename?_under (by decide) "d", hk.basename? (by decide), hj.basename? (by decide)⟩

/-- The first picture, whose key has two parts, is kept in a file named by the last one. -/
theorem Store.pictured_file :
    ∃ s, (StoreCall.savePayload "a" "d/k" (.ofBytes [1]) .dot).perform (.withFiles 0) .system
        (.blank .empty) = (.ok (.descriptor (.ofReference ⟨"a", "d/k"⟩ .dot)), s) ∧
      s.data = StoreData.empty.write default "a" "d/k"
        (Descriptor.ofReference ⟨"a", "d/k"⟩ .dot).toJson ∧
      s.schemas = .pictures ∧ s.outside = .ofPicture "k" [1] := by
  exact Store.picture_saved (by rfl) (by rfl) (by rfl)
    (save_picture Storage.basename?_pictures.1 (.inl rfl) 1)

/-- A picture takes the place of another one whose key ends alike. -/
theorem payloads_shared :
    let env := Environment.withFiles 0
    let first : Actor × StoreCall := (.system, .savePayload "a" "d/k" (.ofBytes [1]) .dot)
    let second : Actor × StoreCall := (.system, .savePayload "a" "k" (.ofBytes [2]) .dot)
    let loaded (calls : List (Actor × StoreCall)) := ((StoreCall.loadPayload "a" "d/k").perform env
      .system (Store.follow env (.blank .empty) calls).2).1
    loaded [first] = .ok (.bytes [1]) ∧ loaded [first, second] = .ok (.bytes [2]) := by
  intro env first second loaded
  obtain ⟨s, hs, hdata, hschemas, houtside⟩ := Store.pictured_file
  obtain ⟨hlong, hshort, -⟩ := Storage.basename?_pictures
  obtain ⟨t, ht, hdata', -, houtside'⟩ := Store.picture_saved (by rw [hschemas]; rfl) (by rfl)
    (by rw [hdata]; rfl) (save_picture hshort (.inr houtside) 2)
  constructor
  · dsimp only [loaded, first]
    rw [Store.follow_cons hs]
    apply Store.picture_loaded
    · rw [Store.follow, hdata, StoreData.value?_write_self]
    · rw [Store.follow, houtside]
      exact bytes_picture hlong [1]
  · dsimp only [loaded, first, second]
    rw [Store.follow_cons hs, Store.follow_cons ht]
    apply Store.picture_loaded
    · have hother : ¬("a" = "a" ∧ "d/k" = "k") := by decide
      rw [Store.follow, hdata', StoreData.value?_write hother, hdata, StoreData.value?_write_self]
    · rw [Store.follow, houtside']
      exact bytes_picture hlong [2]

/-- A picture is loaded as before when another one has been saved and deleted whose key ends
differently. -/
theorem payloads_isolated_pictures :
    ∃ s, (StoreCall.savePayload "a" "d/k" (.ofBytes [1]) .dot).perform (.withFiles 0) .system
        (.blank .empty) = (.ok (.descriptor (.ofReference ⟨"a", "d/k"⟩ .dot)), s) ∧
      ((StoreCall.loadPayload "a" "d/k").perform (.withFiles 0) .system
        (Store.follow (.withFiles 0) s [(.system, .savePayload "a" "j" (.ofBytes [2]) .dot),
          (.system, .delete "a" (some "j"))]).2).1 = .ok (.bytes [1]) := by
  obtain ⟨s, hs, hdata, -, houtside⟩ := Store.pictured_file
  have hpicture : s.data.value? "a" "d/k" =
      some (Descriptor.ofReference ⟨"a", "d/k"⟩ .dot).toJson := by
    rw [hdata, StoreData.value?_write_self]
  have howns : s.Owns (.withFiles 0) ⟨"a", "j"⟩ := by
    intro v hv
    rw [hdata] at hv
    cases hv
  have hother : s.Owns (.withFiles 0) ⟨"a", "d/k"⟩ := by
    intro v hv
    obtain rfl := Option.some.inj (hpicture.symm.trans hv)
    exact .inr (.intro BinaryMetadata.dot_sized hs)
  obtain ⟨hk, -, hj⟩ := Storage.basename?_pictures
  have hfile : ¬(StorePath.mk "a" "d/k").SameFile ⟨"a", "j"⟩ := by
    rintro ⟨-, hname, -, hname'⟩
    have hsame : some "k" = some "j" := (hk.symm.trans hname).trans (hname'.symm.trans hj)
    exact absurd (Option.some.inj hsame) (by decide)
  have hsaves : (StoreCall.savePayload "a" "j" (.ofBytes [2]) .dot).Replaces ⟨"a", "j"⟩ :=
    .save BinaryMetadata.dot_sized
  have hcalls : ∀ step ∈ (Store.follow (.withFiles 0) s
      [(.system, .savePayload "a" "j" (.ofBytes [2]) .dot),
        (.system, .delete "a" (some "j"))]).1,
      step.call.Replaces ⟨"a", "j"⟩ ∧ step.before.Owns (.withFiles 0) ⟨"a", "j"⟩ := by
    refine List.forall_mem_cons.mpr ⟨⟨hsaves, howns⟩, List.forall_mem_cons.mpr ⟨⟨.delete, ?_⟩, ?_⟩⟩
    · apply hsaves.owns _ howns (StoreStep.perform_eq (.withFiles 0) ⟨s, .system, _⟩)
      intro v opts hset
      cases hset
    · exact List.forall_mem_nil _
  have hloaded : ((StoreCall.loadPayload "a" "d/k").perform (.withFiles 0) .system s).1 =
      .ok (.bytes [1]) := by
    apply Store.picture_loaded hpicture
    rw [houtside]
    exact bytes_picture hk [1]
  have hne : StorePath.mk "a" "j" ≠ ⟨"a", "d/k"⟩ := by decide
  have hsame := payloads_isolated (Environment.withFiles_filesIn 0) hne hcalls hother
    (fun h => absurd h hfile) .system
  exact ⟨s, hs, hsame.trans hloaded⟩

end Workflow
