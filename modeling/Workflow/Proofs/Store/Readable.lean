import Workflow.Proofs.Binary.Schema
import Workflow.Proofs.Storage.Name
import Workflow.Proofs.Store.Payloads
import Workflow.Proofs.Store.Permission

/-!
# Values that are set as descriptors

A value that is set under the schema of descriptors has passed it. If its numbers fit, it is read as
a consistent descriptor; then loading its payload may fail for what the payload is, or for the
object that it refers to, but not for the descriptor. The schema says nothing of the width of
numbers. So it also lets in what cannot be read.
-/
namespace Workflow
open Attempt
variable {σ α : Type}

namespace SchemaRegistry

theorem accepts_of_validate {r : SchemaRegistry} {id : String} {v : Json}
    {rules : SchemaDocument} (h : r.validate id v = .ok ⟨⟩) (hid : r.get? id = some rules) :
    rules.accepts v = true := by
  rw [validate, hid] at h
  dsimp only at h
  split at h
  · assumption
  · cases h

end SchemaRegistry

namespace Store
variable {env : Environment σ} {actor : Actor} {s t u : Store σ} {ns key id : String} {v : Json}

theorem checkValue_of_valid (resource : String) (h : s.schemas.validate id v = .ok ⟨⟩) :
    checkValue env actor resource v (some id) s = (.ok ⟨⟩, s) := by
  rw [checkValue, get_bind, h]
  rfl

/-- A valid value is set where nothing is in its way. -/
theorem set_of_valid {overwrite : Bool}
    (hmay : actor.May s.permissions (StorePath.mk ns key).resource .write)
    (hvalid : s.schemas.validate id v = .ok ⟨⟩)
    (hfree : ((s.data.value? ns key).isSome && !overwrite) = false) :
    ∃ t, (StoreCall.set ns key v ⟨overwrite, some id⟩).perform env actor s =
      (.ok (.flag true), t) := by
  rcases hset : Store.set env actor ns key v ⟨overwrite, some id⟩ s with ⟨r, t⟩
  have h := hset
  rw [Store.set, bind_of_ok (authorize_of_may hmay),
    bind_of_ok (checkValue_of_valid _ hvalid)] at h
  dsimp only at h
  rw [get_bind, hfree, if_neg Bool.false_ne_true, modify_bind, lift_bind] at h
  obtain ⟨rfl, -⟩ := logged h fun _ => rfl
  exact ⟨t, bind_of_ok hset⟩

/-- A value is set under a schema only if it is valid. -/
theorem valid_of_set {overwrite done : Bool}
    (h : Store.set env actor ns key v ⟨overwrite, some id⟩ s = (.ok done, t)) :
    s.schemas.validate id v = .ok ⟨⟩ := by
  obtain ⟨e, he, -⟩ | h := (authorize_gate _ _ _).bind_cases h
  · cases he
  rw [bind_apply, checkValue, get_bind] at h
  cases hvalid : s.schemas.validate id v with
  | ok done => rfl
  | error e =>
    rw [hvalid] at h
    dsimp only at h
    rw [lift_bind, throw_apply] at h
    cases h

theorem payload_flaw {d : Descriptor} {flaw : DescriptorFlaw} {held : Bytes → α}
    (h : (inlineBytes d).map held = .error (.badDescriptor flaw)) :
    ∃ cause, flaw = .badPayload cause := by
  unfold inlineBytes at h
  cases hbytes : Base64.decodeText (d.data.getD "") with
  | ok bytes =>
    rw [hbytes] at h
    cases h
  | error cause =>
    rw [hbytes] at h
    cases h
    exact ⟨cause, rfl⟩

/-- Where there is a descriptor, nothing is wrong with it but the payload that it holds. -/
theorem fetch_flaw {path : StorePath} {found : Option Json} {d : Descriptor} {held : Bytes → α}
    {referred : ObjectStore σ → StorePath → Attempt σ ObjectError α} {x : σ}
    {flaw : DescriptorFlaw} (hd : descriptorOf path found = .ok d)
    (h : (fetch env path found held referred x).1 = .error (.badDescriptor flaw)) :
    ∃ cause, flaw = .badPayload cause := by
  rw [fetch, hd] at h
  dsimp only at h
  split at h
  · rename_i place o _ _ _
    cases hobject : (referred o place x).1 with
    | ok a =>
      rw [hobject] at h
      cases h
    | error e =>
      rw [hobject] at h
      cases h
  · cases h
  · exact payload_flaw h

theorem loadPayload_flaw {d : Descriptor} {flaw : DescriptorFlaw}
    (hd : descriptorOf ⟨ns, key⟩ (s.data.value? ns key) = .ok d)
    (h : ((StoreCall.loadPayload ns key).perform env actor s).1 = .error (.badDescriptor flaw)) :
    ∃ cause, flaw = .badPayload cause := by
  rcases hload : (StoreCall.loadPayload ns key).perform env actor s with ⟨r, t⟩
  rw [hload] at h
  obtain ⟨found, hread, rfl⟩ := StoreCall.answer_cases hload
  cases found with
  | ok bytes => cases h
  | error e =>
    cases h
    obtain ⟨-, cause, hrefused, -⟩ | ⟨u, x, -, hfetch, -⟩ := readPayload_cases hread
    · cases hrefused
    · exact fetch_flaw hd (congrArg Prod.fst hfetch)

end Store

/-- The schema of descriptors admits a value only if it is marked as a descriptor, and then the
value is read as a descriptor, which is consistent, exactly if its numbers fit. So of a value that
was set under this schema, and whose numbers fit, nobody who loads the payload is told that the
descriptor is unmarked, unreadable or inconsistent. -/
theorem admitted_readable (env : Environment σ) (format : String) :
    ∃ rules, SchemaDocument.ofJson? (Descriptor.schema format) = some rules ∧
      (∀ v : Json, v.Sorted → rules.accepts v = true → Descriptor.isMarked v = true ∧
        ((∃ d, Descriptor.decode v = .ok d ∧ d.isConsistent = true) ↔ Descriptor.Fits v)) ∧
      ∀ (actor : Actor) (s t : Store σ) (ns key : String) (v : Json) (overwrite : Bool),
        s.schemas.get? (Descriptor.schemaId format) = some rules → v.Sorted → Descriptor.Fits v →
        (StoreCall.set ns key v ⟨overwrite, some (Descriptor.schemaId format)⟩).perform env actor
            s =
          (.ok (.flag true), t) →
        t.data.value? ns key = some v ∧
        ∀ (reader : Actor) (u : Store σ) (flaw : DescriptorFlaw), u.data.value? ns key = some v →
          ((StoreCall.loadPayload ns key).perform env reader u).1 =
            .error (.badDescriptor flaw) → ∃ cause, flaw = .badPayload cause := by
  refine ⟨_, Descriptor.ofJson?_schema format, fun v => Descriptor.readable_iff_fits, ?_⟩
  intro actor s t ns key v overwrite hrules hsorted hfits hset
  have haccepts : (Descriptor.rules format).accepts v = true := by
    obtain ⟨e | done, hdone, hflag⟩ := StoreCall.answer_cases hset
    · cases hflag
    · exact SchemaRegistry.accepts_of_validate (Store.valid_of_set hdone) hrules
  obtain ⟨hmarked, hread⟩ := Descriptor.readable_iff_fits hsorted haccepts
  obtain ⟨d, hd, hconsistent⟩ := hread.mpr hfits
  refine ⟨?_, fun reader u flaw hvalue hload => ?_⟩
  · cases StoreCall.perform_ends hset with
    | payload hc => rcases hc with hc | hc <;> cases hc
    | set hn => rw [hn.data, Store.overwrite_data, StoreData.value?_write_self]
  · have hof : Store.descriptorOf ⟨ns, key⟩ (some v) = .ok d :=
      Store.descriptorOf_of_decode hmarked hd hconsistent
    exact Store.loadPayload_flaw (hvalue ▸ hof) hload

def Json.ofSound (channels : Int) : Json :=
  .obj ⟨[("__type__", .str "binary"), ("channels", .int channels), ("data", .str "aGk="),
    ("data_location", .str "inline"), ("encoding", .str "base64"), ("format", .str "wav"),
    ("sample_rate", .int 44100)]⟩

theorem Json.ofSound_sorted (channels : Int) : (ofSound channels).Sorted := by
  have hkeys : ["__type__", "channels", "data", "data_location", "encoding", "format",
      "sample_rate"].Pairwise (· < ·) := by decide
  refine .obj (List.pairwise_map.mp hkeys) ?_
  simp [Sorted.str, Json.int, Sorted.num]

theorem Descriptor.fits_ofSound {channels : Int} (h : channels < 65536) :
    Fits (.ofSound channels) where
  sampleRate w hw := ⟨44100, (Option.some.inj hw).symm, by decide⟩
  channels w hw := ⟨channels, (Option.some.inj hw).symm, h⟩
  pages w hw := nomatch hw
  dimensions w hw := nomatch hw

theorem Descriptor.accepts_ofSound {channels : Int} (h : channels = 2 ∨ channels = 65536) :
    (rules "wav").accepts (.ofSound channels) = true := by
  have hcategory : BinaryCategory.ofFormat "wav" = .audio := by
    have hname : lowercase "wav" = "wav" := by decide
    rw [BinaryCategory.ofFormat, hname, Storage.splitOn_slash (by decide)]
    rfl
  have hfields : requiredFields "wav" =
      ["__type__", "format", "data_location", "sample_rate", "channels"] := by
    rw [requiredFields, hcategory]
    rfl
  rw [SchemaDocument.accepts, SchemaDocument.violations, rules, hfields]
  rcases h with rfl | rfl <;> decide +kernel

def Store.sounding : Store Values :=
  { Store.blank Table.empty with
    schemas := (SchemaRegistry.registerBinary .empty "wav").toOption.getD default }

theorem Store.sounding_schemas :
    sounding.schemas.get? (Descriptor.schemaId "wav") = some (Descriptor.rules "wav") := by
  have hregister : SchemaRegistry.registerBinary .empty "wav" =
      .ok (.insert .empty (Descriptor.schemaId "wav") (Descriptor.rules "wav")) := by
    rw [SchemaRegistry.registerBinary, if_neg (by simp [Table.contains]), SchemaRegistry.register,
      Descriptor.ofJson?_schema]
  rw [sounding, hregister]
  exact Table.get?_insert_self _ _ _

/-- A sound with two channels is let in, and whoever loads it is not told that its descriptor is
wrong. -/
theorem admitted_readable_stereo :
    let call := StoreCall.set "a" "k" (.ofSound 2) ⟨false, some (Descriptor.schemaId "wav")⟩
    ∃ t, call.perform .inMemory .system .sounding = (.ok (.flag true), t) ∧
      t.data.value? "a" "k" = some (.ofSound 2) ∧
      (∃ d, Descriptor.decode (.ofSound 2) = .ok d ∧ d.isConsistent = true) ∧
      ∀ reader flaw, ((StoreCall.loadPayload "a" "k").perform .inMemory reader t).1 =
        .error (.badDescriptor flaw) → ∃ cause, flaw = .badPayload cause := by
  intro call
  obtain ⟨rules, hrules, hadmits, hset⟩ := admitted_readable .inMemory "wav"
  obtain rfl := Option.some.inj (hrules.symm.trans (Descriptor.ofJson?_schema "wav"))
  have hsorted := Json.ofSound_sorted 2
  have hfits : Descriptor.Fits (.ofSound 2) := Descriptor.fits_ofSound (by decide)
  have haccepts : (Descriptor.rules "wav").accepts (.ofSound 2) = true :=
    Descriptor.accepts_ofSound (.inl rfl)
  have hvalid : Store.sounding.schemas.validate (Descriptor.schemaId "wav") (.ofSound 2) =
      .ok ⟨⟩ := by
    rw [SchemaRegistry.validate, Store.sounding_schemas]
    exact if_pos haccepts
  obtain ⟨t, ht⟩ : ∃ t, call.perform .inMemory .system .sounding = (.ok (.flag true), t) :=
    Store.set_of_valid (.inl rfl) hvalid rfl
  obtain ⟨hvalue, hload⟩ := hset .system _ _ _ _ _ _ Store.sounding_schemas hsorted hfits ht
  exact ⟨t, ht, hvalue, (hadmits _ hsorted haccepts).2.mpr hfits,
    fun reader flaw => hload reader t flaw hvalue⟩

/-- A sound with more channels than fit into a word is let in as well, but is not read. -/
theorem wide_sound_admitted :
    (Descriptor.rules "wav").accepts (.ofSound 65536) = true ∧
      ¬∃ d, Descriptor.decode (.ofSound 65536) = .ok d := by
  have haccepts : (Descriptor.rules "wav").accepts (.ofSound 65536) = true :=
    Descriptor.accepts_ofSound (.inr rfl)
  refine ⟨haccepts, ?_⟩
  rintro ⟨d, hd⟩
  have hfits := Descriptor.fits_of_decode (List.isEmpty_iff.mp haccepts) hd
  obtain ⟨i, hi, hlt⟩ := hfits.channels (.int 65536) rfl
  cases hi
  exact absurd hlt (Int.lt_irrefl _)

end Workflow
