import Workflow.Table
import Mathlib.Data.List.Sort

/-!
# Tables in key order

Putting a list of pairs into a table shows the last pair of every key, and else what the table has
shown before. The pairs of a table that is in key order have different keys, so that it does not
matter from which end they are looked at.
-/
namespace Workflow.Table
variable {α : Type u}

theorem lookup_append (k : String) (es fs : List (String × α)) :
    lookup k (es ++ fs) = (lookup k es).or (lookup k fs) := by
  induction es with
  | nil => rfl
  | cons e es ih =>
    rw [List.cons_append, lookup, lookup]
    split
    · rfl
    · exact ih

theorem lookup_eq_none {k : String} {es : List (String × α)} (h : ∀ e ∈ es, e.1 ≠ k) :
    lookup k es = none := by
  induction es with
  | nil => rfl
  | cons e es ih =>
    rw [lookup, if_neg (h e List.mem_cons_self).symm]
    exact ih fun f hf => h f (List.mem_cons_of_mem e hf)

theorem mem_of_lookup {k : String} {v : α} {es : List (String × α)} (h : lookup k es = some v) :
    (k, v) ∈ es := by
  induction es with
  | nil => cases h
  | cons e es ih =>
    rw [lookup] at h
    split at h
    · rename_i hk
      cases h
      rw [hk]
      exact List.mem_cons_self
    · exact List.mem_cons_of_mem e (ih h)

theorem lookup_isSome {k : String} {es : List (String × α)} :
    (lookup k es).isSome ↔ k ∈ es.map Prod.fst := by
  induction es with
  | nil => simp [lookup]
  | cons e es ih =>
    rw [lookup, List.map_cons, List.mem_cons, ← ih]
    split <;> simp_all

/-- What holds of every key holds still if it holds of the one that is bound. -/
theorem insert_keys {t : Table α} {P : String → Prop} {key : String} {v : α}
    (h : ∀ k, (t.get? k).isSome → P k) (hkey : P key) (k : String)
    (hk : ((t.insert key v).get? k).isSome) : P k := by
  rw [get?_insert] at hk
  split at hk
  · rename_i heq
    rw [heq]
    exact hkey
  · exact h k hk

theorem erase_keys {t : Table α} {P : String → Prop} (key : String)
    (h : ∀ k, (t.get? k).isSome → P k) (k : String) (hk : ((t.erase key).get? k).isSome) : P k := by
  rw [get?_erase] at hk
  split at hk
  · cases hk
  · exact h k hk

theorem mem_keys {t : Table α} {k : String} : k ∈ t.keys ↔ (t.get? k).isSome :=
  lookup_isSome.symm

theorem exists_get? {t : Table α} (h : t.isEmpty = false) : ∃ k v, t.get? k = some v := by
  obtain ⟨_ | ⟨⟨k, v⟩, es⟩⟩ := t
  · cases h
  · exact ⟨k, v, if_pos rfl⟩

theorem isEmpty_of_get? {t : Table α} (h : ∀ k, t.get? k = none) : t.isEmpty := by
  by_contra hne
  obtain ⟨k, v, hv⟩ := exists_get? (Bool.not_eq_true _ ▸ hne)
  rw [h k] at hv
  cases hv

theorem lookup_filter (p : String → Bool) (k : String) (es : List (String × α)) :
    lookup k (es.filter fun e => p e.1) = if p k then lookup k es else none := by
  induction es with
  | nil => simp [lookup]
  | cons e es ih =>
    obtain ⟨j, v⟩ := e
    by_cases hk : k = j
    · subst hk
      by_cases hp : p k <;> simp_all [lookup]
    · by_cases hp : p j <;> simp_all [lookup]

theorem get?_filter (t : Table α) (p : String → Bool) (k : String) :
    (t.filter fun key _ => p key).get? k = if p k then t.get? k else none :=
  lookup_filter p k t.entries

theorem get?_insertAll (t : Table α) (pairs : List (String × α)) (k : String) :
    (t.insertAll pairs).get? k = (lookup k pairs.reverse).or (t.get? k) := by
  induction pairs generalizing t with
  | nil => rfl
  | cons e pairs ih =>
    rw [insertAll, List.foldl_cons, ← insertAll, ih, get?_insert, List.reverse_cons, lookup_append,
      Option.or_assoc]
    congr 1
    rw [lookup]
    split <;> rfl

theorem lookup_reverse {es : List (String × α)} (h : es.Pairwise fun e f => e.1 ≠ f.1)
    (k : String) : lookup k es.reverse = lookup k es := by
  induction h with
  | nil => rfl
  | @cons e es he _ ih =>
    obtain ⟨j, v⟩ := e
    rw [List.reverse_cons, lookup_append, ih]
    by_cases hk : k = j
    · subst hk
      have hes : lookup k es = none := lookup_eq_none fun f hf heq => he f hf heq.symm
      simp [hes, lookup]
    · simp [hk, lookup]

theorem lookup_of_mem {es : List (String × α)} (h : es.Pairwise fun e f => e.1 ≠ f.1)
    {e : String × α} (he : e ∈ es) : lookup e.1 es = some e.2 := by
  induction h with
  | nil => cases he
  | @cons f es hf _ ih =>
    obtain ⟨j, v⟩ := f
    rcases List.mem_cons.mp he with rfl | he
    · simp [lookup]
    · simp [lookup, (hf e he).symm, ih he]

theorem mem_insertEntry {k : String} {v : α} {e : String × α} {es : List (String × α)}
    (h : e ∈ insertEntry k v es) : e = (k, v) ∨ e ∈ es := by
  induction es with
  | nil => exact .inl (List.mem_singleton.mp h)
  | cons f es ih =>
    rw [insertEntry] at h
    split at h
    · rcases List.mem_cons.mp h with h | h
      · exact .inl h
      · exact .inr (List.mem_cons_of_mem f h)
    · split at h
      · exact (List.mem_cons.mp h).imp_right id
      · rcases List.mem_cons.mp h with h | h
        · exact .inr (h ▸ List.mem_cons_self)
        · exact (ih h).imp_right (List.mem_cons_of_mem f)

theorem insertEntry_pairwise {es : List (String × α)} (h : es.Pairwise fun e f => e.1 < f.1)
    (k : String) (v : α) : (insertEntry k v es).Pairwise fun e f => e.1 < f.1 := by
  induction h with
  | nil => exact List.pairwise_singleton _ _
  | @cons e es he h ih =>
    rw [insertEntry]
    split
    · rename_i hk
      subst hk
      exact .cons he h
    · split
      · rename_i hlt
        refine .cons (fun f hf => ?_) (.cons he h)
        rcases List.mem_cons.mp hf with rfl | hf
        · exact hlt
        · exact String.lt_trans hlt (he f hf)
      · rename_i hne hlt
        refine .cons (fun f hf => ?_) ih
        rcases mem_insertEntry hf with rfl | hf
        · have hle : e.1 ≤ k := String.not_lt.mp hlt
          grind
        · exact he f hf

theorem insertEntry_of_last {es : List (String × α)} {k : String} (h : ∀ e ∈ es, e.1 < k) (v : α) :
    insertEntry k v es = es ++ [(k, v)] := by
  induction es with
  | nil => rfl
  | cons e es ih =>
    have he : e.1 < k := h e List.mem_cons_self
    have hne : k ≠ e.1 := by
      intro heq
      exact String.lt_irrefl k (heq ▸ he)
    have hlt : ¬k < e.1 := fun hk => String.lt_irrefl k (String.lt_trans hk he)
    rw [insertEntry, if_neg hne, if_neg hlt, ih fun f hf => h f (List.mem_cons_of_mem e hf)]
    rfl

theorem insertEntry_insertEntry (k : String) (v w : α) (es : List (String × α)) :
    insertEntry k v (insertEntry k w es) = insertEntry k v es := by
  induction es with
  | nil => simp [insertEntry]
  | cons e es ih =>
    by_cases hk : k = e.1
    · simp [insertEntry, hk]
    · by_cases hlt : k < e.1 <;> simp [insertEntry, hk, hlt, ih]

theorem insert_insert (t : Table α) (k : String) (v w : α) :
    (t.insert k w).insert k v = t.insert k v :=
  congrArg Table.mk (insertEntry_insertEntry k v w t.entries)

namespace Sorted
variable {t : Table α}

theorem erase (h : t.Sorted) (k : String) : (t.erase k).Sorted := List.Pairwise.filter _ h

theorem insert (h : t.Sorted) (k : String) (v : α) : (t.insert k v).Sorted :=
  insertEntry_pairwise h k v

theorem insertAll (h : t.Sorted) (pairs : List (String × α)) : (t.insertAll pairs).Sorted := by
  induction pairs generalizing t with
  | nil => exact h
  | cons e pairs ih => exact ih (h.insert e.1 e.2)

theorem distinct (h : t.Sorted) : t.entries.Pairwise fun e f => e.1 ≠ f.1 := by
  apply List.Pairwise.imp _ h
  intro e f hlt heq
  exact String.lt_irrefl e.1 (lt_of_lt_of_eq hlt heq.symm)

theorem get?_of_mem (h : t.Sorted) {e : String × α} (he : e ∈ t.entries) :
    t.get? e.1 = some e.2 :=
  lookup_of_mem h.distinct he

theorem filter (h : t.Sorted) (p : String → α → Bool) : (t.filter p).Sorted :=
  List.Pairwise.filter _ h

theorem mem_iff (h : t.Sorted) {e : String × α} : e ∈ t.entries ↔ t.get? e.1 = some e.2 :=
  ⟨h.get?_of_mem, mem_of_lookup⟩

theorem nodup (h : t.Sorted) : t.entries.Nodup :=
  h.distinct.imp fun hne heq => hne (congrArg Prod.fst heq)

theorem keys (h : t.Sorted) : t.keys.Pairwise (· < ·) := List.pairwise_map.mpr h

/-- Tables in key order that show the same are the same. -/
theorem ext {u : Table α} (ht : t.Sorted) (hu : u.Sorted) (h : ∀ k, t.get? k = u.get? k) :
    t = u := by
  have hasymm (e f : String × α) (hef : e.1 < f.1) (hfe : f.1 < e.1) : e = f :=
    absurd (String.lt_trans hef hfe) (String.lt_irrefl _)
  have hperm : t.entries.Perm u.entries := by
    rw [List.perm_ext_iff_of_nodup ht.nodup hu.nodup]
    intro e
    rw [ht.mem_iff, hu.mem_iff, h]
  have hentries := hperm.eq_of_pairwise (fun e f _ _ => hasymm e f) ht hu
  exact congrArg Table.mk hentries

theorem insert_of_get? (h : t.Sorted) {k : String} {v : α} (hv : t.get? k = some v) :
    t.insert k v = t := by
  refine (h.insert k v).ext h fun j => ?_
  rw [get?_insert]
  split
  · rename_i heq
    rw [heq, hv]
  · rfl

theorem erase_of_none (h : t.Sorted) {k : String} (hk : t.get? k = none) : t.erase k = t := by
  refine (h.erase k).ext h fun j => ?_
  rw [get?_erase]
  split
  · rename_i heq
    rw [heq, hk]
  · rfl

theorem erase_insert (h : t.Sorted) (k : String) (v : α) : (t.insert k v).erase k = t.erase k := by
  refine ((h.insert k v).erase k).ext (h.erase k) fun j => ?_
  rw [get?_erase, get?_erase, get?_insert]
  split <;> rfl

/-- Pairs in any order put together the table that has them. -/
theorem ofList_eq (h : t.Sorted) {pairs : List (String × α)}
    (hpairs : ∀ e, e ∈ pairs ↔ t.get? e.1 = some e.2) : ofList pairs = t := by
  have hempty : (empty : Table α).Sorted := List.Pairwise.nil
  refine (hempty.insertAll pairs).ext h fun k => ?_
  rw [get?_insertAll, get?_empty, Option.or_none]
  cases hv : t.get? k with
  | some v =>
    have hmem : (k, v) ∈ pairs := (hpairs (k, v)).mpr hv
    have hfound : (lookup k pairs.reverse).isSome :=
      lookup_isSome.mpr (List.mem_map_of_mem (List.mem_reverse.mpr hmem))
    obtain ⟨w, hw⟩ := Option.isSome_iff_exists.mp hfound
    have hget := (hpairs (k, w)).mp (List.mem_reverse.mp (mem_of_lookup hw))
    rw [hw, ← hv, hget]
  | none =>
    apply lookup_eq_none
    rintro e he rfl
    rw [(hpairs e).mp (List.mem_reverse.mp he)] at hv
    cases hv

theorem ofList_entries (h : t.Sorted) : ofList t.entries = t := h.ofList_eq fun _ => h.mem_iff

theorem get?_union_filter (h : t.Sorted) (p : String → Bool) (u : Table α) (k : String) :
    (u.union (t.filter fun key _ => p key)).get? k =
      (if p k then t.get? k else none).or (u.get? k) := by
  rw [union, get?_insertAll, lookup_reverse (h.filter _).distinct, Table.filter, lookup_filter p]
  rfl

end Sorted
end Workflow.Table
