import Workflow.Proofs.Storage.Name
import Workflow.Proofs.Storage.Unwritten
import Workflow.Proofs.Store.Isolated

/-!
# Payloads that could not be saved

Saving a payload reads it, registers and checks a schema and writes an object before it touches the
data, and any of these may fail. What then changed are schemas, the trail and what writing the
object left behind. No object is altered, so that all payloads are loaded as before.
-/
namespace Workflow
open Attempt
variable {σ : Type}

theorem ObjectStore.Provided.atomic {o : ObjectStore σ} (h : o.Provided) : o.Atomic := by
  cases h with
  | memory hp => exact memory_atomic.through hp
  | directory root chunk hp => exact (directory_atomic root chunk).through hp

def ObjectStore.InFiles (o : ObjectStore σ) : Prop :=
  ∃ (p : Part σ Tree) (root : Tree.Path) (chunk : Nat), o = (directory root chunk).through p

/-- Objects that cannot be read are in files. -/
theorem ObjectStore.Provided.inFiles {o : ObjectStore σ} (h : o.Provided) {place : StorePath}
    {x : σ} {e : FileError} (hbytes : o.bytes place x = .error (.file e)) : o.InFiles := by
  cases h with
  | directory root chunk => exact ⟨_, root, chunk, rfl⟩
  | @memory p =>
    rw [bytes_through, memory_bytes] at hbytes
    cases hfind : (p.get x).find place.ns place.key <;> simp [hfind] at hbytes

def Environment.Undisturbed (env : Environment σ) : Prop :=
  ∀ o ∈ env.objects, ∀ k ∈ env.sink, ∀ place, k.Spares (o.shown place)

namespace Environment.Undisturbed
variable {env : Environment σ} {o : ObjectStore σ} {k : Sink σ}

theorem bytes (henv : env.Undisturbed) (ho : o ∈ env.objects) (hk : k ∈ env.sink)
    (place : StorePath) : k.Spares (o.bytes place) := by
  intro e x
  rw [o.bytes_eq_shown, o.bytes_eq_shown, henv o ho k hk place e x]

end Environment.Undisturbed

namespace Store
variable {env : Environment σ} {actor : Actor} {ns key : String} {source : Source}
  {metadata : BinaryMetadata} {s t u : Store σ} {e : StoreError}

/-- Two stores hold the same data, which the same actors may read, and show the same objects. -/
structure Unsaved (env : Environment σ) (s t : Store σ) : Prop where
  data : t.data = s.data
  permissions : t.permissions = s.permissions
  objects : ∀ o ∈ env.objects, ∀ place, o.Unaltered place s.outside t.outside

theorem Unsaved.noted (henv : env.Undisturbed) (h : Unsaved env s t) (hn : Noted env actor t u) :
    Unsaved env s u where
  data := hn.data.trans h.data
  permissions := hn.permissions.trans h.permissions
  objects o ho place := by
    have hshown := hn.view fun k hk => henv o ho k hk place
    rw [ObjectStore.Unaltered, hshown]
    exact h.objects o ho place

theorem Writes.unsaved (hobjects : ∀ o ∈ env.objects, o.Atomic)
    (h : Writes env ns key source metadata s (.error e) t) : Unsaved env s t := by
  cases h with
  | refused => exact ⟨rfl, rfl, fun _ _ _ => .inl rfl⟩
  | broken ho hsave =>
    refine ⟨rfl, rfl, fun o' ho' => ?_⟩
    obtain rfl := Option.some.inj ((Option.mem_def.mp ho').symm.trans (Option.mem_def.mp ho))
    exact hobjects _ ho _ _ _ _ _ _ hsave

theorem savePayload_unsaved (hobjects : ∀ o ∈ env.objects, o.Atomic) (henv : env.Undisturbed)
    (h : (StoreCall.savePayload ns key source metadata).perform env actor s = (.error e, t)) :
    Unsaved env s t := by
  cases StoreCall.perform_ends h with
  | failed hn => exact .noted henv ⟨rfl, rfl, fun _ _ _ => .inl rfl⟩ hn
  | unwritten hw hn => exact ((writePayload_cases hw).unsaved hobjects).noted henv hn
  | payload hc => rcases hc with hc | hc <;> cases hc
  | unlisted hc => rcases hc with hc | hc <;> cases hc

/-- Under a value that stays, a payload stays, or it is what the object is that the value refers
to. -/
theorem payload_cases (hvalue : t.data.value? ns key = s.data.value? ns key) :
    payload env ns key t = payload env ns key s ∨
      ∃ o ∈ env.objects, ∃ place, s.data.Refers ns key place ∧
        payload env ns key s = (o.bytes place s.outside).mapError .object ∧
        payload env ns key t = (o.bytes place t.outside).mapError .object := by
  unfold payload
  rw [hvalue]
  obtain ⟨r, hr⟩ | ⟨o, ho, place, hplace, hobject⟩ := fetch_cases env ⟨ns, key⟩
    (s.data.value? ns key) id fun (o : ObjectStore σ) place => o.load place.ns place.key
  · exact .inl (by rw [hr, hr])
  · exact .inr ⟨o, ho, place, hplace, hobject _, hobject _⟩

/-- After a payload could not be saved, those who load one get what they got before, or learn that
there is a name too long on the way to an object that was not found before. -/
theorem Unsaved.load (henv : env.Undisturbed) (h : Unsaved env s t) (reader : Actor)
    (ns key : String) :
    let before := ((StoreCall.loadPayload ns key).perform env reader s).1
    let after := ((StoreCall.loadPayload ns key).perform env reader t).1
    after = before ∨ ∃ o ∈ env.objects, ∃ place, s.data.Refers ns key place ∧
      o.bytes place t.outside = .error (.file .nameTooLong) ∧
      before = .error (.object (.notFound place.ns place.key)) ∧
      after = .error (.object (.file .nameTooLong)) := by
  intro before after
  have hsink (v : Store σ) : ∀ o ∈ env.objects, ∀ place, v.data.Refers ns key place →
      ∀ k ∈ env.sink, k.Spares (o.bytes place) := fun o ho place _ k hk => henv.bytes ho hk place
  by_cases hmay : reader.May s.permissions (StorePath.mk ns key).resource .read
  · have hbefore : before = _ := loadPayload_of_may (hsink s) hmay
    have hafter : after = _ := loadPayload_of_may (hsink t) (h.permissions.symm ▸ hmay)
    rw [hbefore, hafter]
    have hvalue : t.data.value? ns key = s.data.value? ns key := by rw [h.data]
    have hpayload : payload env ns key t = payload env ns key s ∨ _ := payload_cases hvalue
    obtain hsame | ⟨o, ho, place, hrefers, hs, ht⟩ := hpayload
    · exact .inl (by rw [hsame])
    · obtain hsame | ⟨hnone, hlong⟩ := (h.objects o ho place).bytes
      · exact .inl (by rw [hs, ht, hsame])
      · exact .inr ⟨o, ho, place, hrefers, hlong, by rw [hs, hnone]; rfl, by rw [ht, hlong]; rfl⟩
  · exact .inl (loadPayload_of_not_may h.permissions hmay)

end Store

/-- A payload that could not be saved leaves the data as they are, the metrics included, and every
object too. So all payloads are loaded as before, or not loaded as before; but where no object was
found in files, one may learn now that a name on the way to it is too long. -/
theorem unsaved_unchanged {env : Environment σ} (hobjects : ∀ o ∈ env.objects, o.Provided)
    (henv : env.Undisturbed) {actor : Actor} {ns key : String} {source : Source}
    {metadata : BinaryMetadata} {s t : Store σ} {e : StoreError}
    (h : (StoreCall.savePayload ns key source metadata).perform env actor s = (.error e, t)) :
    t.data = s.data ∧
      (∀ o ∈ env.objects, ∀ place : StorePath,
        o.contains place.ns place.key t.outside = o.contains place.ns place.key s.outside ∧
          ∀ bytes, o.bytes place t.outside = .ok bytes ↔ o.bytes place s.outside = .ok bytes) ∧
      ∀ (reader : Actor) (ns' key' : String),
        let before := ((StoreCall.loadPayload ns' key').perform env reader s).1
        let after := ((StoreCall.loadPayload ns' key').perform env reader t).1
        after = before ∨
          (∃ o ∈ env.objects, o.InFiles) ∧
            ∃ place, s.data.Refers ns' key' place ∧
              before = .error (.object (.notFound place.ns place.key)) ∧
              after = .error (.object (.file .nameTooLong)) := by
  have hunsaved : Store.Unsaved env s t :=
    Store.savePayload_unsaved (fun o ho => (hobjects o ho).atomic) henv h
  refine ⟨hunsaved.data, fun o ho place => ?_, fun reader ns' key' => ?_⟩
  · have hobject := hunsaved.objects o ho place
    exact ⟨hobject.contains, hobject.ok_iff⟩
  · obtain hsame | ⟨o, ho, place, hrefers, hlong, hbefore, hafter⟩ :=
      hunsaved.load henv reader ns' key'
    · exact .inl hsame
    · exact .inr ⟨⟨o, ho, (hobjects o ho).inFiles hlong⟩, place, hrefers, hbefore, hafter⟩

/-- The picture is still loaded when another one of the same key breaks off. -/
theorem unsaved_unchanged_picture :
    ∃ e t, (StoreCall.savePayload "a" "k" [.piece [1], .interrupted,
        .failure (.device "device gone")] .dot).perform (.withObjects 1) .system .pictured =
          (.error e, t) ∧
      ((StoreCall.loadPayload "a" "k").perform (.withObjects 1) .system t).1 =
        .ok (.bytes [1]) := by
  have hprovided : ObjectStore.memory.Provided := .memory (p := .whole) fun _ _ => rfl
  have hobjects : ∀ o ∈ (Environment.withObjects 1).objects, o.Provided :=
    fun o ho => Option.some.inj ho ▸ hprovided
  have hundisturbed : (Environment.withObjects 1).Undisturbed := fun _ _ _ hk => nomatch hk
  have hsave : (StoreCall.savePayload "a" "k" [.piece [1], .interrupted,
      .failure (.device "device gone")] .dot).perform (.withObjects 1) .system .pictured =
        (.error (.object (.file (.device "device gone"))), _) := Prod.ext (by rfl) rfl
  have hload : ((StoreCall.loadPayload "a" "k").perform (.withObjects 1) .system .pictured).1 =
      .ok (.bytes [1]) := by rfl
  obtain ⟨-, -, hloads⟩ := unsaved_unchanged hobjects hundisturbed hsave
  obtain hsame | ⟨-, _, -, hlost, -⟩ := hloads .system "a" "k"
  · exact ⟨_, _, hsave, hsame.trans hload⟩
  · cases hload.symm.trans hlost

namespace Store
variable {env : Environment σ} {actor : Actor} {ns key : String} {source : Source}
  {metadata : BinaryMetadata} {s u : Store σ} {e : StoreError}

theorem savePayload_of_unwritten
    (hmay : actor.May s.permissions (StorePath.mk ns key).resource .write)
    (hw : writePayload env ns key source metadata s = (.error e, u)) :
    ∃ t, (StoreCall.savePayload ns key source metadata).perform env actor s = (.error e, t) ∧
      Noted env actor u t := by
  rcases haudited : audited env actor "save_binary" "binary" (StorePath.mk ns key).resource
    (writePayload env ns key source metadata) s with ⟨r, t⟩
  obtain ⟨u', hu', hn, -⟩ := audited_cases haudited
  rw [hw] at hu'
  cases hu'
  have hsave : savePayload env actor ns key source metadata s = (.error e, t) := by
    rw [savePayload, bind_of_ok (authorize_of_may hmay), bind_of_error haudited]
  exact ⟨t, bind_of_error hsave, hn⟩

def longName : String := String.ofList (List.replicate 256 'a')

theorem eq_of_mem_longName {c : Char} (h : c ∈ longName.toList) : c = 'a' := by
  have hletters (n : Nat) (hc : c ∈ (String.ofList (List.replicate n 'a')).toList) : c = 'a' := by
    rw [String.toList_ofList] at hc
    exact List.eq_of_mem_replicate hc
  exact hletters 256 h

theorem longName_size : longName.utf8ByteSize = 256 := by
  have hsize (n : Nat) : (String.ofList (List.replicate n 'a')).utf8ByteSize = n := by
    rw [String.utf8ByteSize_ofList]
    induction n with
    | zero => rfl
    | succ n ih =>
      rw [List.replicate_succ, String.utf8Len_cons, ih]
      rfl
  exact hsize 256

theorem objectPath_longName : ObjectStore.objectPath ["data"] "n" longName =
    .ok (["data", "n"], ["data", "n", longName]) := by
  have hname : Storage.Nameable longName := by
    constructor <;> exact fun h => absurd (h ▸ longName_size) (by decide)
  have hslash : '/' ∉ longName.toList := fun h => absurd (eq_of_mem_longName h) (by decide)
  have hdirectory : Storage.Nameable "n" := by decide
  rw [ObjectStore.objectPath, hname.basename? hslash, hdirectory.basename? (by decide)]
  rfl

theorem checkPath_longName : Tree.checkPath ["data", "n", longName] = .ok ⟨⟩ := by
  apply Storage.checkPath_of_ne_nul
  rintro name hname c hc rfl
  rcases List.mem_cons.mp hname with rfl | hname
  · revert hc
    decide
  rcases List.mem_pair.mp hname with rfl | rfl
  · revert hc
    decide
  · exact absurd (eq_of_mem_longName hc) (by decide)

/-- A store with a value that refers to the object with the long name. -/
def referring : Store Tree :=
  (follow (.withFiles 0) (.blank .empty)
    [(.system, .set "x" "d" (Descriptor.ofReference ⟨"n", longName⟩ .dot).toJson .default)]).2

theorem load_referring {s : Store Tree} {cause : FileError} (hdata : s.data = referring.data)
    (h : s.outside.follow ["data", "n", longName] = .error cause) :
    ((StoreCall.loadPayload "x" "d").perform (.withFiles 0) .system s).1 =
      .error (.object (if cause = .notFound then .notFound "n" longName else .file cause)) := by
  have hvalue : s.data.value? "x" "d" =
      some (Descriptor.ofReference ⟨"n", longName⟩ .dot).toJson := by
    rw [hdata]
    rfl
  have hfind : s.outside.find ["data", "n", longName] = .error cause := by
    rw [Tree.find, checkPath_longName]
    exact h
  have hshown : (ObjectStore.directory ["data"] 0).shown ⟨"n", longName⟩ s.outside = _ :=
    ObjectStore.directory_shown_of_error objectPath_longName hfind
  rw [@picture_read s ⟨"x", "d"⟩ ⟨"n", longName⟩ hvalue, ObjectStore.bytes_through,
    ObjectStore.bytes_eq_shown]
  change ((((ObjectStore.directory ["data"] 0).shown ⟨"n", longName⟩ s.outside).1.bind
    _).mapError _).map _ = _
  rw [hshown]
  rfl

end Store

/-- The directory that was made for an object that could not be saved is noticed by those who load
another object whose name is too long. -/
theorem unsaved_noticed :
    let load := (StoreCall.loadPayload "x" "d").perform (.withFiles 0) .system
    ∃ e t, (StoreCall.savePayload "n" "k" [.failure (.device "device gone")] .dot).perform
        (.withFiles 0) .system .referring = (.error e, t) ∧
      (load .referring).1 = .error (.object (.notFound "n" Store.longName)) ∧
      (load t).1 = .error (.object (.file .nameTooLong)) := by
  intro load
  let source : Source := [.failure (.device "device gone")]
  let made : Tree := .directory (.singleton "data" (.directory (.singleton "n" .empty)))
  have hsave : ((ObjectStore.directory ["data"] 0).through .whole).save "n" "k"
      (.piece [] :: source) Store.referring.outside =
        (.error (.file (.device "device gone")), made) := by
    have houtside : Store.referring.outside = .empty := by rfl
    have hplain : Storage.Nameable "n" ∧ Storage.Nameable "k" := by decide
    rw [houtside]
    change ObjectStore.saveFile ["data"] 65536 "n" "k" _ _ = _
    rw [ObjectStore.saveFile, ObjectStore.objectPath, hplain.1.basename? (by decide),
      hplain.2.basename? (by decide), Source.drain_chunked]
    rfl
  have htake : source.takeUpTo (Environment.withFiles 0).inlineThreshold = .ok ([], source) := by
    rfl
  have hschemas : Store.referring.schemas.registerBinary BinaryMetadata.dot.format =
      .ok .pictures := by rfl
  have hvalid : SchemaRegistry.pictures.validate (Descriptor.schemaId BinaryMetadata.dot.format)
      (Descriptor.ofReference ⟨"n", "k"⟩ .dot).toJson = .ok ⟨⟩ := by rfl
  have hwrite := Store.writePayload_of_save htake (Nat.lt_irrefl 0) hschemas hvalid rfl hsave
  have hmay : Actor.system.May Store.referring.permissions (StorePath.mk "n" "k").resource .write :=
    .inl rfl
  obtain ⟨t, ht, hn⟩ := Store.savePayload_of_unwritten hmay hwrite
  have houtside : id t.outside = made := hn.view fun k hk => absurd hk (Option.not_mem_none k)
  have hmissing : Store.referring.outside.follow ["data", "n", Store.longName] =
      .error .notFound := by rfl
  have hlong : t.outside.follow ["data", "n", Store.longName] = .error .nameTooLong := by
    rw [← id_eq t.outside, houtside, Tree.follow_of_some (by rfl) (by rfl),
      Tree.follow_of_some (by rfl) (by rfl), Tree.empty, Tree.follow, Tree.checkName,
      Store.longName_size]
    rfl
  have hbefore := Store.load_referring rfl hmissing
  have hafter := Store.load_referring hn.data hlong
  exact ⟨_, t, ht, hbefore, hafter⟩

end Workflow
