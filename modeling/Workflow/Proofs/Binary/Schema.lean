import Workflow.Schema.Registry
import Workflow.Proofs.Binary.Descriptor
import Workflow.Proofs.Schema.Admits

/-!
# What the schema of descriptors admits

The schema and the record describe the same values in two ways. What the schema admits has every
member that the record needs, of the right type, and exactly what its location calls for. But the
schema only gives the least value of a number, and counts a double without a fraction as an integer,
while the record reads integers into words. So what is admitted is read as a consistent descriptor
exactly if its numbers fit into their words.
-/
namespace Workflow

/-- The tables of all objects in a value are in the order of their keys. -/
inductive Json.Sorted : Json → Prop
  | null : Sorted .null
  | bool (b : Bool) : Sorted (.bool b)
  | num (n : Number) : Sorted (.num n)
  | str (s : String) : Sorted (.str s)
  | arr {items : List Json} : (∀ v ∈ items, Sorted v) → Sorted (.arr items)
  | obj {fields : Table Json} : fields.Sorted → (∀ e ∈ fields.entries, Sorted e.2) →
      Sorted (.obj fields)

theorem Json.Sorted.fields {t : Table Json} (h : (Json.obj t).Sorted) : t.Sorted := by
  cases h with
  | obj ht _ => exact ht

theorem Json.Sorted.member {v w : Json} {name : String} (h : v.Sorted)
    (hw : v.get? name = some w) : w.Sorted := by
  cases h with
  | @obj fields _ hmembers => exact hmembers (name, w) (Table.mem_of_lookup hw)
  | _ => cases hw

/-- The number under a name, if there is one, is written as an integer below a bound. -/
def Json.Below (v : Json) (name : String) (bound : Nat) : Prop :=
  ∀ w, v.get? name = some w → ∃ i : Int, w = .int i ∧ i < bound

namespace Descriptor
open Schema Record

/-- What the schema demands of a whole number from a least one on. -/
def integerRule (least : Int) : Schema := .all [.atLeast (.int least), .types [.integer]]

def textRule : Schema := .all [.types [.string]]

/-- What the schema demands of an object that must have some members. -/
def objectRule (members : List (String × Schema)) : Schema :=
  .all [.properties members, .required (members.map (·.1)).reverse, .types [.object]]

def memberRules : List (String × Schema) :=
  [("__type__", .all [.exactly (.str typeMarker)]), ("channels", integerRule 1),
    ("data", textRule), ("data_location", .all [.oneOfValues [.str "inline", .str "referenced"]]),
    ("dimensions", objectRule [("height", integerRule 0), ("width", integerRule 0)]),
    ("duration", .all [.atLeast (.int 0), .types [.number]]), ("encoding", textRule),
    ("format", .all [.leastLength 1, .types [.string]]), ("pages", integerRule 1),
    ("sample_rate", integerRule 1),
    ("storage_reference", objectRule [("key", textRule), ("namespace", textRule)])]

def locationRule (location : DataLocation) (needed : List String) (unwanted : String) : Schema :=
  .all [.negation (.all [.required [unwanted]]) (.obj ⟨[("required", namesJson [unwanted])]⟩),
    .properties [("data_location", .all [.exactly (.str location.name)])], .required needed]

/-- What the schema for descriptors of a format demands. -/
def rules (format : String) : SchemaDocument where
  source := schema format
  root := .all [.singleOf [locationRule .inline ["data", "encoding"] "storage_reference",
      locationRule .referenced ["storage_reference"] "data"],
    .properties memberRules, .required (requiredFields format), .types [.object]]
  targets := .empty

theorem ofJson?_schema (format : String) :
    SchemaDocument.ofJson? (schema format) = some (rules format) := by
  have hroot : Schema.ofJson? (schema format) = some (rules format).root := by
    unfold schema rules requiredFields
    cases BinaryCategory.ofFormat format <;> rfl
  have hnone : (rules format).root.references = [] := rfl
  rw [SchemaDocument.ofJson?, hroot]
  dsimp only [Option.bind_eq_bind, Option.bind_some]
  rw [hnone, resolveTargets?]
  rfl

/-- The numbers of a descriptor are written as integers, and are small enough for the words that
they are read into. -/
structure Fits (v : Json) : Prop where
  sampleRate : v.Below "sample_rate" (Nat.pow 2 32)
  channels : v.Below "channels" (Nat.pow 2 16)
  pages : v.Below "pages" (Nat.pow 2 32)
  dimensions : ∀ w, v.get? "dimensions" = some w →
    w.Below "width" (Nat.pow 2 32) ∧ w.Below "height" (Nat.pow 2 32)

section Admitted
variable {refer : Referrer} {v w : Json} {t : Table Json} {least : Int} {bound : Nat}
  {format title : String}

theorem natural_of_admits (hleast : 0 ≤ least) (h : (integerRule least).Admits refer w)
    (hw : ∃ i : Int, w = .int i ∧ i < bound) :
    w ≠ .null ∧ ∃ n, Decoder.natural bound title w = .ok n := by
  obtain ⟨i, rfl, hi⟩ := hw
  have hle : least ≤ i := (h.part List.mem_cons_self).le
  exact ⟨nofun, i.toNat, if_pos ⟨hleast.trans hle, hi⟩⟩

theorem text_of_admits (h : textRule.Admits refer w) : w ≠ .null ∧ ∃ s, Decoder.text w = .ok s := by
  obtain ⟨s, rfl⟩ := (h.part List.mem_cons_self).text
  exact ⟨nofun, s, rfl⟩

theorem float_of_admits (h : (Schema.all [.atLeast (.int 0), .types [.number]]).Admits refer w) :
    w ≠ .null ∧ ∃ x, Decoder.float w = .ok x := by
  obtain ⟨n, rfl⟩ := (h.part (List.mem_cons_of_mem _ List.mem_cons_self)).number (.inl rfl)
  exact ⟨nofun, n.toFloat, rfl⟩

/-- An object with the members that are demanded of it, each of which can be read, can be read. -/
theorem object_of_admits {members : List (String × Schema)}
    (h : (objectRule members).Admits refer w) :
    ∃ t, w = .obj t ∧ ∀ e ∈ members, t.contains e.1 = true ∧
      ∀ u, t.get? e.1 = some u → e.2.Admits refer u := by
  have htypes : (types [.object]).Admits refer w := h.part (by simp)
  obtain ⟨t, rfl⟩ := htypes.object
  refine ⟨t, rfl, fun e he => ⟨?_, fun u hu => ?_⟩⟩
  · have hrequired : (required (members.map (·.1)).reverse).Admits refer (.obj t) :=
      h.part (by simp)
    exact hrequired.contains (List.mem_reverse.mpr (List.mem_map_of_mem he))
  · exact (h.part List.mem_cons_self).declared he hu

theorem dimensions_of_admits
    (h : (objectRule [("height", integerRule 0), ("width", integerRule 0)]).Admits refer w)
    (hsorted : w.Sorted)
    (hfits : w.Below "width" (Nat.pow 2 32) ∧ w.Below "height" (Nat.pow 2 32)) :
    w ≠ .null ∧ ∃ d, Dimensions.record.decode "struct Dimensions" w = .ok d := by
  obtain ⟨t, rfl, hmembers⟩ := object_of_admits h
  have word (name : String) (hmem : (name, integerRule 0) ∈
      [("height", integerRule 0), ("width", integerRule 0)])
      (hbelow : (Json.obj t).Below name (Nat.pow 2 32)) :
      ∃ n, Reads t (.required name .word32) n :=
    Reads.exists_required (hmembers _ hmem).1 fun u hu =>
      (natural_of_admits (Int.le_refl 0) ((hmembers _ hmem).2 u hu) (hbelow u hu)).2
  obtain ⟨width, hwidth⟩ := word "width" (by simp) hfits.1
  obtain ⟨height, hheight⟩ := word "height" (by simp) hfits.2
  have hreads : Reads t Dimensions.record ⟨width, height⟩ := (hwidth.map Dimensions.mk).seq hheight
  exact ⟨nofun, _, hreads.ofTable hsorted.fields⟩

theorem reference_of_admits
    (h : (objectRule [("key", textRule), ("namespace", textRule)]).Admits refer w)
    (hsorted : w.Sorted) :
    w ≠ .null ∧ ∃ p, StorePath.record.decode "struct StorageReference" w = .ok p := by
  obtain ⟨t, rfl, hmembers⟩ := object_of_admits h
  have text (name : String)
      (hmem : (name, textRule) ∈ [("key", textRule), ("namespace", textRule)]) :
      ∃ s, Reads t (.required name .text) s :=
    Reads.exists_required (hmembers _ hmem).1 fun u hu =>
      (text_of_admits ((hmembers _ hmem).2 u hu)).2
  obtain ⟨ns, hns⟩ := text "namespace" (by simp)
  obtain ⟨key, hkey⟩ := text "key" (by simp)
  have hreads : Reads t StorePath.record ⟨ns, key⟩ := (hns.map StorePath.mk).seq hkey
  exact ⟨nofun, _, hreads.ofTable hsorted.fields⟩

/-- What a location calls for is there, and what it rules out is not. -/
theorem location_of_admits {location : DataLocation} {needed : List String} {unwanted : String}
    (h : (locationRule location needed unwanted).Admits refer (.obj t))
    (hthere : t.contains "data_location" = true) :
    t.get? "data_location" = some (.str location.name) ∧
      (∀ name ∈ needed, t.contains name = true) ∧ t.contains unwanted = false := by
  have hnone := h.part List.mem_cons_self
  have hproperties := h.part (List.mem_cons_of_mem _ List.mem_cons_self)
  have hneeded : (required needed).Admits refer (.obj t) := h.part (by simp)
  refine ⟨?_, fun name hn => hneeded.contains hn, ?_⟩
  · obtain ⟨w, hw⟩ := Option.isSome_iff_exists.mp hthere
    have hexactly := (hproperties.declared List.mem_cons_self hw).part List.mem_cons_self
    rw [hw, hexactly.eq_text]
  · by_contra hcontains
    refine hnone.not_admits ?_
    simp [Schema.Admits, violations, allViolations, expect, hcontains]

section Root
variable (h : (rules format).root.Admits refer (.obj t))
include h

theorem member_of_admits {name : String} {m : Schema} (hm : (name, m) ∈ memberRules) {w : Json}
    (hw : t.get? name = some w) : m.Admits refer w :=
  (h.part (List.mem_cons_of_mem _ List.mem_cons_self)).declared hm hw

theorem contains_of_admits {name : String} (hn : name ∈ requiredFields format) :
    t.contains name = true := by
  have hrequired : (required (requiredFields format)).Admits refer (.obj t) := h.part (by simp)
  exact hrequired.contains hn

/-- The metadata of a descriptor that is admitted can be read if its numbers fit. -/
theorem metadata_of_admits (hsorted : (Json.obj t).Sorted) (hfits : Fits (.obj t)) :
    ∃ m, Reads (record.others t) BinaryMetadata.record m := by
  have there {name : String} (hown : name ∉ record.names) {w : Json}
      (hw : (record.others t).get? name = some w) : t.get? name = some w :=
    (others_get? hown).symm.trans hw
  have number (name title : String) {bound : Nat} (hown : name ∉ record.names)
      (hm : (name, integerRule 1) ∈ memberRules) (hbelow : (Json.obj t).Below name bound) :
      ∃ found, Reads (record.others t) (.optional name (.natural bound title)) found :=
    (Reads.exists_optional fun w hw => natural_of_admits Int.one_nonneg
      (member_of_admits h hm (there hown hw)) (hbelow w (there hown hw))).imp fun _ h => h.1
  have hformat : (record.others t).contains "format" = true := by
    rw [Table.contains, others_get? (by decide)]
    exact contains_of_admits h (by simp [requiredFields])
  obtain ⟨format, readFormat⟩ := Reads.exists_required (d := .text) hformat fun w hw => by
    have hrule := member_of_admits h (m := .all [.leastLength 1, .types [.string]])
      (by simp [memberRules]) (there (by decide) hw)
    obtain ⟨s, rfl⟩ := (hrule.part (List.mem_cons_of_mem _ List.mem_cons_self)).text
    exact ⟨s, rfl⟩
  obtain ⟨duration, readDuration, -⟩ := Reads.exists_optional fun w hw =>
    float_of_admits (member_of_admits h (by simp [memberRules]) (there
      (show "duration" ∉ record.names by decide) hw))
  obtain ⟨rate, readRate⟩ := number "sample_rate" "u32" (by decide) (by simp [memberRules])
    hfits.sampleRate
  obtain ⟨channels, readChannels⟩ := number "channels" "u16" (by decide) (by simp [memberRules])
    hfits.channels
  obtain ⟨dimensions, readDimensions, -⟩ := Reads.exists_optional fun w hw =>
    have hthere := there (show "dimensions" ∉ record.names by decide) hw
    dimensions_of_admits (member_of_admits h (by simp [memberRules]) hthere)
      (hsorted.member hthere) (hfits.dimensions w hthere)
  obtain ⟨pages, readPages⟩ := number "pages" "u32" (by decide) (by simp [memberRules]) hfits.pages
  exact ⟨_, (((((readFormat.map BinaryMetadata.mk).seq readDuration).seq readRate).seq
    readChannels).seq readDimensions).seq readPages⟩

/-- The location of a descriptor that is admitted, with what it calls for. -/
theorem placed_of_admits : ∃ location : DataLocation,
    t.get? "data_location" = some (.str location.name) ∧
      match location with
      | .inline => t.contains "data" = true ∧ t.contains "encoding" = true ∧
          t.contains "storage_reference" = false
      | .referenced => t.contains "storage_reference" = true ∧ t.contains "data" = false := by
  have hthere : t.contains "data_location" = true :=
    contains_of_admits h (by simp [requiredFields])
  rcases (h.part List.mem_cons_self).alternative with h | h
  · obtain ⟨hlocation, hneeded, hnot⟩ := location_of_admits h hthere
    exact ⟨.inline, hlocation, hneeded _ (by simp), hneeded _ (by simp), hnot⟩
  · obtain ⟨hlocation, hneeded, hnot⟩ := location_of_admits h hthere
    exact ⟨.referenced, hlocation, hneeded _ (by simp), hnot⟩

theorem marker_of_admits : t.get? "__type__" = some (.str typeMarker) := by
  have hthere : t.contains "__type__" = true := contains_of_admits h (by simp [requiredFields])
  obtain ⟨w, hw⟩ := Option.isSome_iff_exists.mp hthere
  have hrule := member_of_admits h (m := .all [.exactly (.str typeMarker)]) List.mem_cons_self hw
  rw [hw, (hrule.part List.mem_cons_self).eq_text]

/-- What is admitted is read as a consistent descriptor if its numbers fit. -/
theorem decode_of_admits (hsorted : (Json.obj t).Sorted) (hfits : Fits (.obj t)) :
    ∃ d, decode (.obj t) = .ok d ∧ d.isConsistent = true := by
  have optionalText (name : String) (hm : (name, textRule) ∈ memberRules) :=
    Reads.exists_optional fun w hw => text_of_admits (member_of_admits h hm hw)
  have readMarker : Reads t (.required "__type__" .text) typeMarker := .text (marker_of_admits h)
  obtain ⟨location, hlocation, hplaced⟩ := placed_of_admits h
  have readLocation :
      Reads t (.required "data_location" (.choice DataLocation.known)) location := by
    cases location <;> exact .field hlocation rfl
  obtain ⟨encoding, readEncoding, hencoding⟩ := optionalText "encoding" (by simp [memberRules])
  obtain ⟨data, readData, hdata⟩ := optionalText "data" (by simp [memberRules])
  obtain ⟨reference, readReference, hreference⟩ := Reads.exists_optional fun w hw =>
    reference_of_admits (member_of_admits h (by simp [memberRules])
      (show t.get? "storage_reference" = some w from hw)) (hsorted.member hw)
  have hown : Reads t record (Descriptor.mk typeMarker location encoding data reference) :=
    ((((readMarker.map Descriptor.mk).seq readLocation).seq readEncoding).seq readData).seq
      readReference
  obtain ⟨m, hmetadata⟩ := metadata_of_admits h hsorted hfits
  refine ⟨⟨typeMarker, location, encoding, data, reference, m⟩, ?_, ?_⟩
  · rw [decode, hown.ofTable hsorted.fields]
    change (BinaryMetadata.record.ofTable (record.others t) >>= fun _ => _) = _
    rw [hmetadata.ofTable (hsorted.fields.filter _)]
    rfl
  · cases location with
    | inline => simp [isConsistent, hencoding, hdata, ← Option.not_isSome, hreference, hplaced]
    | referenced => simp [isConsistent, hdata, ← Option.not_isSome, hreference, hplaced]

end Root

theorem integer_of_natural {n : Nat} (h : Decoder.natural bound title w = .ok n) :
    ∃ i : Int, w = .int i ∧ i < bound := by
  unfold Decoder.natural at h
  split at h
  · split at h
    · rename_i i hi
      exact ⟨i, rfl, hi.2⟩
    · cases h
  · cases h

/-- A number that must be there is below its bound where the record can be read. -/
theorem below_of_required {α : Type} {r : Record α} {a : α} {name : String}
    (h : r.ofTable t = .ok a) (hcheck : r.checks.find? (fun c => c.1 == name) =
      some (name, fun v => (Decoder.natural bound title v).map fun _ => ())) :
    (Json.obj t).Below name bound := by
  intro w hw
  obtain ⟨n, hn, -⟩ := Attempt.ok_of_map (check_of_ofTable h hw hcheck)
  exact integer_of_natural hn

/-- A number that may be missing, but not null, is below its bound where the record can be read. -/
theorem below_of_optional {α : Type} {r : Record α} {a : α} {name : String}
    (h : r.ofTable t = .ok a) (hcheck : r.checks.find? (fun c => c.1 == name) =
      some (name, fun v => (Decoder.nullable (Decoder.natural bound title) v).map fun _ => ()))
    (hrule : ∀ w, t.get? name = some w → (integerRule 1).Admits refer w) :
    (Json.obj t).Below name bound := by
  intro w hw
  have hnumber : (types [.integer]).Admits refer w := (hrule w hw).part (by simp)
  obtain ⟨n, rfl⟩ := hnumber.number (.inr rfl)
  obtain ⟨found, hfound, -⟩ := Attempt.ok_of_map (check_of_ofTable h hw hcheck)
  obtain ⟨m, hm, -⟩ := Attempt.ok_of_map hfound
  exact integer_of_natural hm

/-- What is admitted and can be read has numbers that fit. -/
theorem fits_of_decode (h : (rules format).root.Admits refer (.obj t)) {d : Descriptor}
    (hd : decode (.obj t) = .ok d) : Fits (.obj t) := by
  obtain ⟨build, -, hd⟩ := Attempt.ok_of_bind hd
  obtain ⟨m, hread, -⟩ := Attempt.ok_of_bind hd
  have inside {name : String} (hown : name ∉ record.names) :
      (record.others t).get? name = t.get? name := others_get? hown
  have number {name title : String} {bound : Nat} (hown : name ∉ record.names)
      (hm : (name, integerRule 1) ∈ memberRules)
      (hcheck : BinaryMetadata.record.checks.find? (fun c => c.1 == name) =
        some (name, fun v => (Decoder.nullable (Decoder.natural bound title) v).map fun _ => ())) :
      (Json.obj t).Below name bound := by
    have hrule (u : Json) (hu : (record.others t).get? name = some u) :
        (integerRule 1).Admits refer u := member_of_admits h hm ((inside hown).symm.trans hu)
    exact fun w hw => below_of_optional hread hcheck hrule w ((inside hown).trans hw)
  refine ⟨number (by decide) (by simp [memberRules]) rfl, number (by decide) (by simp [memberRules])
    rfl, number (by decide) (by simp [memberRules]) rfl, fun w hw => ?_⟩
  have hrule := member_of_admits h (m := objectRule [("height", integerRule 0),
    ("width", integerRule 0)]) (by simp [memberRules]) hw
  obtain ⟨dims, rfl, -⟩ := object_of_admits hrule
  have hcheck := check_of_ofTable hread ((inside (by decide)).trans hw) rfl
  obtain ⟨found, hfound, -⟩ := Attempt.ok_of_map hcheck
  obtain ⟨d, hdims, -⟩ := Attempt.ok_of_map hfound
  exact ⟨below_of_required hdims rfl, below_of_required hdims rfl⟩

/-- A value that the schema accepts is marked as a descriptor, and it is read as one, which is
consistent, exactly if its numbers fit. -/
theorem readable_iff_fits {v : Json} (hsorted : v.Sorted) (h : (rules format).accepts v = true) :
    isMarked v = true ∧ ((∃ d, decode v = .ok d ∧ d.isConsistent = true) ↔ Fits v) := by
  have hroot : (rules format).root.Admits _ v := List.isEmpty_iff.mp h
  have htypes : (types [.object]).Admits _ v := hroot.part (by simp)
  obtain ⟨t, rfl⟩ := htypes.object
  refine ⟨?_, fun ⟨d, hd, _⟩ => fits_of_decode hroot hd, decode_of_admits hroot hsorted⟩
  have hmarker : (Json.obj t).get? "__type__" = some (.str typeMarker) := marker_of_admits hroot
  rw [isMarked, hmarker]
  rfl

end Admitted
end Descriptor
end Workflow
