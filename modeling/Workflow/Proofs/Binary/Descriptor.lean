import Workflow.Binary.Descriptor
import Workflow.Proofs.Json.Record

/-!
# Descriptors that are read back

A descriptor that is written as a value is read back as one that refers to the same place, whatever
is known about its payload, as long as the numbers fit.
-/
namespace Workflow
open Record

theorem Decoder.word32_nat {n : Nat} (h : n < Nat.pow 2 32) : Decoder.word32 (.nat n) = .ok n :=
  natural_nat h "u32"

structure Dimensions.Sized (d : Dimensions) : Prop where
  width : d.width < Nat.pow 2 32
  height : d.height < Nat.pow 2 32

structure BinaryMetadata.Sized (m : BinaryMetadata) : Prop where
  sampleRate : ∀ n ∈ m.sampleRate, n < Nat.pow 2 32
  channels : ∀ n ∈ m.channels, n < Nat.pow 2 16
  dimensions : ∀ d ∈ m.dimensions, d.Sized
  pages : ∀ n ∈ m.pages, n < Nat.pow 2 32

def BinaryMetadata.dot : BinaryMetadata := ⟨"image/png", none, none, none, some ⟨1, 1⟩, none⟩

theorem BinaryMetadata.dot_sized : dot.Sized where
  sampleRate := nofun
  channels := nofun
  dimensions d hd := by
    obtain rfl := Option.some.inj hd
    exact ⟨by decide, by decide⟩
  pages := nofun

theorem Dimensions.decode_toJson {d : Dimensions} (h : d.Sized) :
    Dimensions.record.decode "struct Dimensions" d.toJson = .ok d := by
  have hpairs : [("width", some (Json.nat d.width)), ("height", some (Json.nat d.height))].Pairwise
      fun f g => f.1 ≠ g.1 := by simp
  obtain ⟨t, ht, hsorted, hget⟩ := Json.ofFields_get? hpairs
  have hjson : d.toJson = .obj t := ht
  have hwidth : Reads t (.required "width" .word32) d.width :=
    .field (hget _ List.mem_cons_self) (Decoder.word32_nat h.width)
  have hheight : Reads t (.required "height" .word32) d.height :=
    .field (hget ("height", some (.nat d.height)) (by simp)) (Decoder.word32_nat h.height)
  have hreads : Reads t Dimensions.record d := (hwidth.map Dimensions.mk).seq hheight
  rw [hjson]
  exact hreads.ofTable hsorted

/-- What is known of a duration when it is read back: nothing if it is no finite number. -/
theorem BinaryMetadata.nullable_durationJson (x : Float) :
    Decoder.nullable .float (durationJson x) = .ok ((some x).filter Float.isFinite) := by
  unfold durationJson Json.ofFloat?
  cases hx : x.isFinite with
  | false => simp [Decoder.nullable, Option.filter, hx]
  | true =>
    simp only [if_true, Option.getD_some, Option.filter, hx]
    rfl

/-- Metadata as they are read back, with a duration only if it is a finite number. -/
def BinaryMetadata.settled (m : BinaryMetadata) : BinaryMetadata :=
  { m with duration := m.duration.filter Float.isFinite }

theorem BinaryMetadata.settled_of_finite {m : BinaryMetadata}
    (h : ∀ x ∈ m.duration, x.isFinite = true) : m.settled = m := by
  have hduration : m.duration.filter Float.isFinite = m.duration := by
    cases hx : m.duration with
    | none => rfl
    | some x => simp [h x hx]
  rw [settled, hduration]

/-- A table that shows the fields of metadata is read as metadata. -/
theorem BinaryMetadata.reads {m : BinaryMetadata} (hm : m.Sized) {t : Table Json}
    (h : ∀ f ∈ m.fields, t.get? f.1 = f.2) : Reads t BinaryMetadata.record m.settled := by
  simp only [fields, List.forall_mem_cons] at h
  obtain ⟨hformat, hduration, hrate, hchannels, hdimensions, hpages, -⟩ := h
  have readFormat : Reads t (.required "format" .text) m.format := .field hformat rfl
  have readDuration : Reads t (.optional "duration" .float)
      (m.duration.filter Float.isFinite) := by
    cases hx : m.duration with
    | none =>
      rw [hx] at hduration
      exact .absent hduration rfl
    | some x =>
      rw [hx] at hduration
      exact .field hduration (nullable_durationJson x)
  have readRate : Reads t (.optional "sample_rate" .word32) m.sampleRate :=
    .optional hrate nofun fun n hn => Decoder.natural_nat (hm.sampleRate n hn) "u32"
  have readChannels : Reads t (.optional "channels" .word16) m.channels :=
    .optional hchannels nofun fun n hn => Decoder.natural_nat (hm.channels n hn) "u16"
  have readDimensions : Reads t
      (.optional "dimensions" (Dimensions.record.decode "struct Dimensions")) m.dimensions :=
    .optional hdimensions nofun fun d hd => Dimensions.decode_toJson (hm.dimensions d hd)
  have readPages : Reads t (.optional "pages" .word32) m.pages :=
    .optional hpages nofun fun n hn => Decoder.natural_nat (hm.pages n hn) "u32"
  exact (((((readFormat.map BinaryMetadata.mk).seq readDuration).seq readRate).seq
    readChannels).seq readDimensions).seq readPages

theorem StorePath.decode_toJson (p : StorePath) :
    StorePath.record.decode "struct StorageReference" p.toJson = .ok p := by
  have hpairs : [("namespace", some (Json.str p.ns)), ("key", some (Json.str p.key))].Pairwise
      fun f g => f.1 ≠ g.1 := by simp
  obtain ⟨t, ht, hsorted, hget⟩ := Json.ofFields_get? hpairs
  have hjson : p.toJson = .obj t := ht
  have hns : Reads t (.required "namespace" .text) p.ns :=
    .field (hget _ List.mem_cons_self) rfl
  have hkey : Reads t (.required "key" .text) p.key :=
    .field (hget ("key", some (.str p.key)) (by simp)) rfl
  have hreads : Reads t StorePath.record p := (hns.map StorePath.mk).seq hkey
  rw [hjson]
  exact hreads.ofTable hsorted

namespace Descriptor

def ownFields (d : Descriptor) : List (String × Option Json) :=
  [("__type__", some (.str d.marker)), ("data_location", some (.str d.location.name)),
    ("encoding", d.encoding.map .str), ("data", d.data.map .str),
    ("storage_reference", d.reference.map StorePath.toJson)]

/-- A descriptor as a table, which shows its fields and those of its metadata. -/
theorem toJson_get? (d : Descriptor) :
    ∃ t : Table Json, d.toJson = .obj t ∧ t.Sorted ∧ (∀ f ∈ d.ownFields, t.get? f.1 = f.2) ∧
      ∀ f ∈ d.metadata.fields, t.get? f.1 = f.2 := by
  have hdistinct : (d.ownFields ++ d.metadata.fields).Pairwise fun f g => f.1 ≠ g.1 := by
    simp [ownFields, BinaryMetadata.fields]
  obtain ⟨t, ht, hsorted, hget⟩ := Json.ofFields_get? hdistinct
  rw [List.forall_mem_append] at hget
  exact ⟨t, ht, hsorted, hget.1, hget.2⟩

/-- A table that shows the fields of a descriptor is read as one. -/
theorem reads {d : Descriptor} {t : Table Json} (h : ∀ f ∈ d.ownFields, t.get? f.1 = f.2) :
    Reads t record
      (Descriptor.mk d.marker d.location d.encoding d.data d.reference) := by
  simp only [ownFields, List.forall_mem_cons] at h
  obtain ⟨hmarker, hlocation, hencoding, hdata, hreference, -⟩ := h
  have readMarker : Reads t (.required "__type__" .text) d.marker := .text hmarker
  have readLocation : Reads t (.required "data_location" (.choice DataLocation.known))
      d.location := by
    cases hl : d.location <;> rw [hl] at hlocation <;> exact .field hlocation rfl
  have readReference : Reads t
      (.optional "storage_reference" (StorePath.record.decode "struct StorageReference"))
      d.reference :=
    .optional hreference nofun fun path _ => path.decode_toJson
  exact ((((readMarker.map Descriptor.mk).seq readLocation).seq (.optionalText hencoding)).seq
    (.optionalText hdata)).seq readReference

/-- No field of metadata has the name of one that all descriptors have. -/
theorem metadata_own (m : BinaryMetadata) : ∀ f ∈ m.fields, f.1 ∉ record.names := by
  have hnames : record.names =
      ["__type__", "data_location", "encoding", "data", "storage_reference"] := rfl
  simp [hnames, BinaryMetadata.fields]

/-- A descriptor is read back from its value. -/
theorem decode_toJson {d : Descriptor} (hm : d.metadata.Sized) :
    decode d.toJson = .ok { d with metadata := d.metadata.settled } := by
  obtain ⟨t, ht, hsorted, hown, hmetadata⟩ := d.toJson_get?
  have hothers : ∀ f ∈ d.metadata.fields, (record.others t).get? f.1 = f.2 := fun f hf =>
    (others_get? (metadata_own d.metadata f hf)).trans (hmetadata f hf)
  have hsettled := BinaryMetadata.reads hm hothers
  rw [ht, decode, (reads hown).ofTable hsorted]
  change (BinaryMetadata.record.ofTable (record.others t) >>= fun _ => _) = _
  rw [hsettled.ofTable (hsorted.filter _)]
  rfl

theorem isMarked_toJson (d : Descriptor) : isMarked d.toJson = (d.marker == typeMarker) := by
  obtain ⟨t, ht, -, hown, -⟩ := d.toJson_get?
  have hmarker : t.get? "__type__" = some (.str d.marker) := hown _ List.mem_cons_self
  simp [isMarked, ht, Json.get?, Json.str?, hmarker]

/-- The value of a descriptor refers to what the descriptor refers to. -/
theorem referenceOf_toJson {d : Descriptor} (hm : d.metadata.Sized)
    (hmarker : d.marker = typeMarker) :
    referenceOf d.toJson = if d.location = .referenced then d.reference else none := by
  rw [referenceOf, isMarked_toJson, decode_toJson hm, hmarker, beq_self_eq_true]
  rfl

theorem referenceOf_ofReference (path : StorePath) {m : BinaryMetadata} (hm : m.Sized) :
    referenceOf (ofReference path m).toJson = some path :=
  referenceOf_toJson (d := ofReference path m) hm rfl

theorem referenceOf_ofInline (data : String) {m : BinaryMetadata} (hm : m.Sized) :
    referenceOf (ofInline data m).toJson = none :=
  referenceOf_toJson (d := ofInline data m) hm rfl

theorem referenceOf_arr (items : List Json) : referenceOf (.arr items) = none := rfl

end Descriptor
end Workflow
