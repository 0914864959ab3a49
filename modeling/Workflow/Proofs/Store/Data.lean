import Workflow.Proofs.Table
import Workflow.Store.Data

/-!
# Where the operations on data write

The operations on the data of a store are about a key, about some keys of a namespace, or about all
of it. What is bound elsewhere stays.
-/
namespace Workflow

/-- Whether a place is that of a key, or lies in a namespace. -/
def Within (ns : String) (key : Option String) (ns' key' : String) : Prop :=
  ns' = ns ∧ ∀ k ∈ key, key' = k

namespace Values
variable {vs : Values} {ns ns' key key' : String}

theorem value?_insert (vs : Values) (ns : String) (t : Table Json) (ns' key' : String) :
    Values.value? (vs.insert ns t) ns' key' =
      if ns' = ns then t.get? key' else vs.value? ns' key' := by
  rw [value?, Table.get?_insert]
  split <;> rfl

theorem value?_erase (vs : Values) (ns ns' key' : String) :
    Values.value? (vs.erase ns) ns' key' = if ns' = ns then none else vs.value? ns' key' := by
  rw [value?, Table.get?_erase]
  split <;> rfl

theorem get?_space (vs : Values) (ns key : String) :
    (vs.space ns).get? key = vs.value? ns key := by
  rw [space, value?]
  cases vs.get? ns <;> rfl

theorem find_of_none (h : vs.get? ns = none) (key : Option String) : vs.find ns key = none := by
  cases key with
  | some key => rw [find, value?, h, Option.bind_none]
  | none => rw [find, h, Option.map_none]

theorem find_key {t : Table Json} (h : vs.get? ns = some t) (key : String) :
    vs.find ns (some key) = t.get? key := by
  rw [find, value?, h, Option.bind_some]

theorem remove_of_none (h : vs.get? ns = none) (key : Option String) : vs.remove ns key = vs := by
  unfold remove
  rw [h]

theorem remove_key {t : Table Json} (h : vs.get? ns = some t) (key : String) :
    vs.remove ns (some key) = vs.insert ns (t.erase key) := by
  unfold remove
  rw [h]

theorem remove_space {t : Table Json} (h : vs.get? ns = some t) :
    vs.remove ns none = vs.erase ns := by
  unfold remove
  rw [h]

theorem value?_put (vs : Values) (ns key : String) (v : Json) (ns' key' : String) :
    (vs.put ns key v).value? ns' key' =
      if ns' = ns ∧ key' = key then some v else vs.value? ns' key' := by
  rw [put, value?_insert, Table.get?_insert, get?_space]
  by_cases hn : ns' = ns
  · subst hn
    by_cases hk : key' = key <;> simp [hk]
  · simp [hn]

theorem value?_putAll (vs : Values) (ns : String) (values : Table Json) (ns' key' : String) :
    (vs.putAll ns values).value? ns' key' =
      if ns' = ns then (Table.lookup key' values.entries.reverse).or (vs.value? ns key')
      else vs.value? ns' key' := by
  rw [putAll, value?_insert, Table.union, Table.get?_insertAll, get?_space]

theorem value?_ensure (vs : Values) (ns ns' key' : String) :
    (vs.ensure ns).value? ns' key' = vs.value? ns' key' := by
  rw [ensure, value?_insert, get?_space]
  split
  · rename_i h
    rw [h]
  · rfl

theorem value?_remove {key : Option String} (h : ¬Within ns key ns' key') :
    (vs.remove ns key).value? ns' key' = vs.value? ns' key' := by
  unfold remove
  split
  · rfl
  · rename_i t k ht
    rw [value?_insert, Table.get?_erase]
    by_cases hn : ns' = ns
    · subst hn
      have hk : key' ≠ k := fun hk => h ⟨rfl, fun _ hj => hk.trans (Option.some.inj hj)⟩
      rw [if_pos rfl, if_neg hk, value?, ht, Option.bind_some]
    · rw [if_neg hn]
  · have hn : ns' ≠ ns := fun hn => h ⟨hn, fun _ hj => nomatch hj⟩
    rw [value?_erase, if_neg hn]

theorem value?_remove_self {key : Option String} (h : ∀ k ∈ key, key' = k) :
    (vs.remove ns key).value? ns key' = none := by
  unfold remove
  split
  · rename_i hnone
    rw [value?, hnone, Option.bind_none]
  · rename_i t k ht
    rw [value?_insert, if_pos rfl, h k rfl, Table.get?_erase_self]
  · rw [value?_erase, if_pos rfl]

end Values

namespace StoreData
variable {d : StoreData} {now : Instant} {ns ns' key key' : String}

theorem recordWrites_values (now : Instant) (ns : String) (values : Table Json) (d : StoreData) :
    (d.recordWrites now ns values).values = d.values := by
  unfold recordWrites
  induction values.entries generalizing d with
  | nil => rfl
  | cons e es ih =>
    rw [List.foldl_cons, ih]
    rfl

theorem recordRead_values (d : StoreData) (now : Instant) (ns : String) (key : Option String) :
    (d.recordRead now ns key).values = d.values := by
  unfold recordRead
  split <;> rfl

theorem value?_write (h : ¬(ns' = ns ∧ key' = key)) (v : Json) :
    (d.write now ns key v).value? ns' key' = d.value? ns' key' :=
  (Values.value?_put _ _ _ _ _ _).trans (if_neg h)

theorem value?_extend (h : ns' ≠ ns) (values : Table Json) :
    (d.extend now ns values).value? ns' key' = d.value? ns' key' := by
  rw [value?, extend, recordWrites_values, Values.value?_putAll, if_neg h]
  rfl

theorem value?_replace (h : ns' ≠ ns) (values : Table Json) :
    (d.replace now ns values).value? ns' key' = d.value? ns' key' := by
  rw [value?, replace, recordWrites_values, Values.value?_insert, if_neg h]
  rfl

theorem value?_remove {key : Option String} (h : ¬Within ns key ns' key') :
    (d.remove ns key).value? ns' key' = d.value? ns' key' := by
  cases key with
  | none =>
    refine (Values.value?_erase _ _ _ _).trans (if_neg fun hn => h ⟨hn, ?_⟩)
    exact fun _ hj => nomatch hj
  | some k =>
    change (d.removeKey ns k).value? ns' key' = _
    unfold removeKey
    split
    · rfl
    · exact Values.value?_remove h
    · exact Values.value?_remove h

theorem value?_remove_self {key : Option String} (h : ∀ k ∈ key, key' = k) :
    (d.remove ns key).value? ns key' = none := by
  cases key with
  | none => exact (Values.value?_erase _ _ _ _).trans (if_pos rfl)
  | some k =>
    change (d.removeKey ns k).value? ns key' = none
    unfold removeKey
    split
    · rename_i _ hnone
      rw [h k rfl]
      exact hnone
    · exact Values.value?_remove_self h
    · exact Values.value?_remove_self h

theorem value?_write_self (d : StoreData) (now : Instant) (ns key : String) (v : Json) :
    (d.write now ns key v).value? ns key = some v :=
  (Values.value?_put _ _ _ _ _ _).trans (if_pos ⟨rfl, rfl⟩)

theorem value?_mergeMember {s : MergeStrategy} {m : Merged} {member : String × Json}
    (h : ¬(ns' = ns ∧ key' = member.1)) :
    (mergeMember s now ns m member).data.value? ns' key' = m.data.value? ns' key' := by
  unfold mergeMember
  dsimp only
  split
  · exact value?_write h _
  · split
    · rfl
    · exact value?_write h _

theorem value?_merge {values : Table Json} (h : ¬(ns' = ns ∧ key' ∈ values.keys))
    (s : MergeStrategy) : (d.merge now ns values s).data.value? ns' key' = d.value? ns' key' := by
  have members (es : List (String × Json)) (hes : ¬(ns' = ns ∧ key' ∈ es.map Prod.fst))
      (m : Merged) :
      (es.foldl (mergeMember s now ns) m).data.value? ns' key' = m.data.value? ns' key' := by
    induction es generalizing m with
    | nil => rfl
    | cons e es ih =>
      have he : ¬(ns' = ns ∧ key' = e.1) := fun he => hes ⟨he.1, he.2 ▸ List.mem_cons_self⟩
      have hrest : ¬(ns' = ns ∧ key' ∈ es.map Prod.fst) := fun hr =>
        hes ⟨hr.1, List.mem_cons_of_mem e.1 hr.2⟩
      rw [List.foldl_cons, ih hrest, value?_mergeMember he]
  exact (members values.entries h _).trans (Values.value?_ensure _ _ _ _)

end StoreData
end Workflow
