import Workflow.Json.Record
import Workflow.Proofs.Attempt
import Workflow.Proofs.Table

/-!
# Records that are read back

A record is made of fields, and reading it from a table is reading its fields: a table that has a
readable value for every field has a readable record. What is written field by field, with different
names, is such a table.
-/
namespace Workflow
variable {α β : Type}

namespace Json

/-- An object that is made of fields with different names shows every field. -/
theorem ofFields_get? {fields : List (String × Option Json)}
    (h : fields.Pairwise fun f g => f.1 ≠ g.1) :
    ∃ t : Table Json, ofFields fields = .obj t ∧ t.Sorted ∧
      ∀ f ∈ fields, t.get? f.1 = f.2 := by
  refine ⟨_, rfl, Table.Sorted.insertAll List.Pairwise.nil _, ?_⟩
  intro f hf
  rw [Table.ofList, Table.get?_insertAll, Table.lookup_reverse, Table.get?_empty, Option.or_none]
  · induction h with
    | nil => cases hf
    | @cons g fields hg hfields ih =>
      obtain ⟨name, value⟩ := g
      rcases List.mem_cons.mp hf with rfl | hmem
      · cases value with
        | some v => simp [Table.lookup]
        | none =>
          apply Table.lookup_eq_none
          intro e he
          simp only [List.filterMap_cons, Option.map_none, List.mem_filterMap] at he
          obtain ⟨f, hf, he⟩ := he
          obtain ⟨v, -, rfl⟩ := Option.map_eq_some_iff.mp he
          exact (hg f hf).symm
      · have hne : f.1 ≠ name := (hg f hmem).symm
        cases value with
        | some v => simpa [Table.lookup, hne] using ih hmem
        | none => simpa using ih hmem
  · rw [List.pairwise_filterMap]
    apply List.Pairwise.imp _ h
    intro f g hne e he e' he'
    obtain ⟨v, -, rfl⟩ := Option.map_eq_some_iff.mp he
    obtain ⟨v', -, rfl⟩ := Option.map_eq_some_iff.mp he'
    exact hne

end Json

theorem Decoder.nullable_eq {d : Decoder α} {v : Json} {a : α} (hnull : v ≠ .null)
    (hd : d v = .ok a) : Decoder.nullable d v = .ok (some a) := by
  cases v with
  | null => exact absurd rfl hnull
  | _ =>
    rw [Decoder.nullable, hd]
    · rfl
    · exact hnull

namespace Record
variable {t : Table Json} {name : String}

/-- A table gives a value of a record: what it has satisfies the checks, and the value is built. -/
structure Reads (t : Table Json) (r : Record α) (a : α) : Prop where
  checks : ∀ c ∈ r.checks, ∀ v, t.get? c.1 = some v → c.2 v = .ok ()
  build : r.build ⟨t.get?, .missing, false⟩ = .ok a

namespace Reads

theorem map {r : Record α} {a : α} (h : Reads t r a) (f : α → β) : Reads t (f <$> r) (f a) where
  checks := h.checks
  build := by
    change (r.build _).map f = _
    rw [h.build]
    rfl

theorem seq {r : Record (α → β)} {x : Record α} {f : α → β} {a : α} (hr : Reads t r f)
    (hx : Reads t x a) : Reads t (r <*> x) (f a) where
  checks := by
    intro c hc
    rcases List.mem_append.mp hc with hc | hc
    · exact hr.checks c hc
    · exact hx.checks c hc
  build := by
    change (r.build _ >>= fun g => x.build _ >>= fun a => Except.ok (g a)) = _
    rw [hr.build]
    change (x.build _ >>= fun a => Except.ok (f a)) = _
    rw [hx.build]
    rfl

theorem field {d : Decoder α} {ifAbsent : FieldSource → Except DecodeError α} {v : Json} {a : α}
    (hv : t.get? name = some v) (hd : d v = .ok a) : Reads t (.field name d ifAbsent) a where
  checks := by
    intro c hc w hw
    obtain rfl := List.mem_singleton.mp hc
    obtain rfl : v = w := Option.some.inj (hv.symm.trans hw)
    change (d v).map _ = _
    rw [hd]
    rfl
  build := by
    simp only [Record.field, hv]
    exact hd

theorem absent {d : Decoder α} {ifAbsent : FieldSource → Except DecodeError α} {a : α}
    (hv : t.get? name = none) (ha : ifAbsent ⟨t.get?, .missing, false⟩ = .ok a) :
    Reads t (.field name d ifAbsent) a where
  checks := by
    intro c hc w hw
    obtain rfl := List.mem_singleton.mp hc
    rw [hv] at hw
    cases hw
  build := by
    simp only [Record.field, hv]
    exact ha

/-- A field that is left out when it has no value. -/
theorem optional {d : Decoder α} {write : α → Json} {found : Option α}
    (hv : t.get? name = found.map write) (hnull : ∀ a, write a ≠ .null)
    (hd : ∀ a ∈ found, d (write a) = .ok a) : Reads t (.optional name d) found := by
  cases found with
  | none => exact .absent hv rfl
  | some a => exact .field hv (Decoder.nullable_eq (hnull a) (hd a rfl))

theorem text {s : String} (hv : t.get? name = some (.str s)) : Reads t (.required name .text) s :=
  .field hv rfl

theorem optionalText {found : Option String} (hv : t.get? name = found.map Json.str) :
    Reads t (.optional name .text) found :=
  .optional hv nofun fun _ _ => rfl

theorem checkMembers_eq {r : Record α} {a : α} (h : Reads t r a) {es : List (String × Json)}
    (hes : ∀ e ∈ es, t.get? e.1 = some e.2) : checkMembers r.checks es = .ok () := by
  induction es with
  | nil => rfl
  | cons e es ih =>
    have hrest := ih fun f hf => hes f (List.mem_cons_of_mem e hf)
    rw [checkMembers]
    split
    · rename_i c hc
      have hname : c.1 = e.1 := by simpa using List.find?_some hc
      have hcheck := h.checks c (List.mem_of_find?_eq_some hc) e.2
      rw [hcheck (hname ▸ hes e List.mem_cons_self)]
      exact hrest
    · exact hrest

theorem ofTable {r : Record α} {a : α} (h : Reads t r a) (ht : t.Sorted) : r.ofTable t = .ok a := by
  rw [Record.ofTable, h.checkMembers_eq fun e he => ht.get?_of_mem he]
  exact h.build

theorem exists_required {d : Decoder α} (hname : t.contains name = true)
    (h : ∀ w, t.get? name = some w → ∃ a, d w = .ok a) : ∃ a, Reads t (.required name d) a := by
  obtain ⟨w, hw⟩ := Option.isSome_iff_exists.mp hname
  obtain ⟨a, ha⟩ := h w hw
  exact ⟨a, .field hw ha⟩

/-- A field that may be missing has a value exactly if it is there. -/
theorem exists_optional {d : Decoder α}
    (h : ∀ w, t.get? name = some w → w ≠ .null ∧ ∃ a, d w = .ok a) :
    ∃ found, Reads t (.optional name d) found ∧ found.isSome = t.contains name := by
  rw [Table.contains]
  cases hw : t.get? name with
  | none => exact ⟨none, .absent hw rfl, rfl⟩
  | some w =>
    obtain ⟨hnull, a, ha⟩ := h w hw
    exact ⟨some a, .field hw (Decoder.nullable_eq hnull ha), rfl⟩

end Reads

theorem others_get? {r : Record α} (h : name ∉ r.names) : (r.others t).get? name = t.get? name := by
  rw [others, Table.get?_filter, if_pos (by simpa using h)]

theorem check_of_checkMembers {checks : List (String × (Json → Except DecodeError Unit))}
    {es : List (String × Json)} (h : checkMembers checks es = .ok ()) {e : String × Json}
    (he : e ∈ es) {c : String × (Json → Except DecodeError Unit)}
    (hc : checks.find? (fun c => c.1 == e.1) = some c) : c.2 e.2 = .ok () := by
  induction es with
  | nil => cases he
  | cons f es ih =>
    rw [checkMembers] at h
    rcases List.mem_cons.mp he with rfl | he
    · rw [hc] at h
      obtain ⟨⟨⟩, hcheck, -⟩ := Attempt.ok_of_bind h
      exact hcheck
    · split at h
      · obtain ⟨⟨⟩, -, hrest⟩ := Attempt.ok_of_bind h
        exact ih hrest he
      · exact ih h he

/-- Every member of a table that can be read passes the check of its field. -/
theorem check_of_ofTable {r : Record α} {a : α} (h : r.ofTable t = .ok a) {w : Json}
    (hw : t.get? name = some w) {c : String × (Json → Except DecodeError Unit)}
    (hc : r.checks.find? (fun c => c.1 == name) = some c) : c.2 w = .ok () := by
  obtain ⟨⟨⟩, hchecks, -⟩ := Attempt.ok_of_bind h
  exact check_of_checkMembers hchecks (Table.mem_of_lookup hw) hc

end Record

theorem Decoder.natural_nat {bound n : Nat} (h : n < bound) (name : String) :
    Decoder.natural bound name (.nat n) = .ok n := by
  have hbound : (0 : Int) ≤ n ∧ (n : Int) < bound := by omega
  simp [Decoder.natural, Json.nat, hbound]

end Workflow
