import Mathlib.Algebra.Ring.Nat
import Workflow.Proofs.Store.Ordered
import Workflow.Proofs.Store.Permission

/-!
# What metrics tell of values

The metrics of a namespace are kept beside its values. Whatever is done to a store, they are those
of the keys that have values and tell how long these are; and a namespace is used whenever one of
its keys is.
-/
namespace Workflow
variable {σ : Type}

namespace Table
variable {α : Type}

def sum (f : α → Nat) (t : Table α) : Nat := (t.entries.map fun e => f e.2).sum

theorem get?_map {β : Type} (f : α → β) (t : Table α) (k : String) :
    (t.map f).get? k = (t.get? k).map f := by
  rw [get?, get?, map]
  induction t.entries with
  | nil => rfl
  | cons e es ih =>
    rw [List.map_cons, lookup, lookup]
    split
    · rfl
    · exact ih

theorem sum_cons (f : α → Nat) (k : String) (v : α) (es : List (String × α)) :
    sum f ⟨(k, v) :: es⟩ = f v + sum f ⟨es⟩ := List.sum_cons

namespace Sorted
variable {t : Table α}

theorem sum_insert (h : t.Sorted) (f : α → Nat) (k : String) (v : α) :
    (t.insert k v).sum f + (t.get? k).elim 0 f = t.sum f + f v := by
  have pairs (es : List (String × α)) (hes : es.Pairwise fun e g => e.1 < g.1) :
      sum f ⟨insertEntry k v es⟩ + (lookup k es).elim 0 f = sum f ⟨es⟩ + f v := by
    induction hes with
    | nil => exact Nat.add_comm (f v) 0
    | @cons e es he _ ih =>
      obtain ⟨j, w⟩ := e
      rw [insertEntry, lookup, sum_cons]
      by_cases hk : k = j
      · rw [if_pos hk, if_pos hk, sum_cons, Option.elim_some]
        omega
      · rw [if_neg hk, if_neg hk]
        by_cases hlt : k < j
        · have hnone : lookup k es = none := by
            apply lookup_eq_none
            rintro e hmem rfl
            exact String.lt_irrefl _ (String.lt_trans hlt (he e hmem))
          rw [if_pos hlt, hnone, sum_cons, sum_cons, Option.elim_none]
          omega
        · rw [if_neg hlt, sum_cons]
          omega
  exact pairs t.entries h

theorem sum_erase (h : t.Sorted) (f : α → Nat) (k : String) :
    (t.erase k).sum f + (t.get? k).elim 0 f = t.sum f := by
  have pairs (es : List (String × α)) (hes : es.Pairwise fun e g => e.1 ≠ g.1) :
      sum f ⟨es.filter fun e => e.1 ≠ k⟩ + (lookup k es).elim 0 f = sum f ⟨es⟩ := by
    induction hes with
    | nil => rfl
    | @cons e es he _ ih =>
      obtain ⟨j, w⟩ := e
      rw [lookup, sum_cons]
      by_cases hk : k = j
      · have hrest : es.filter (fun g => decide (g.1 ≠ k)) = es :=
          List.filter_eq_self.mpr fun g hg => decide_eq_true (hk ▸ (he g hg).symm)
        rw [List.filter_cons_of_neg (by simp [hk]), hrest, if_pos hk, Option.elim_some]
        omega
      · rw [List.filter_cons_of_pos (by simp [Ne.symm hk]), if_neg hk, sum_cons]
        omega
  exact pairs t.entries h.distinct

theorem map {β : Type} (h : t.Sorted) (f : α → β) : (t.map f).Sorted := List.pairwise_map.mpr h

end Sorted
end Table

namespace SpaceMetrics

theorem total_eq (keys : Table KeyMetrics) : total keys = keys.sum KeyMetrics.sizeBytes := by
  rw [total, Table.values, Table.sum]
  induction keys.entries with
  | nil => rfl
  | cons e es ih => rw [List.map_cons, List.foldr_cons, ih, List.map_cons, List.sum_cons]

/-- The metrics are those of a namespace that holds certain values: they are about its keys and tell
how long the values are, and count at least as many uses of the namespace as of its keys. -/
structure Measures (m : SpaceMetrics) (values : Table Json) : Prop where
  sorted : m.keys.Sorted
  sizes : ∀ key, (m.keys.get? key).map KeyMetrics.sizeBytes = (values.get? key).map Json.byteSize
  total : m.sizeBytes = m.keys.sum KeyMetrics.sizeBytes
  uses : m.keys.sum KeyMetrics.accessCount ≤ m.accessCount

namespace Measures
variable {m : SpaceMetrics} {values : Table Json}

theorem unused (now : Instant) : (unused now).Measures .empty where
  sorted := List.Pairwise.nil
  sizes _ := rfl
  total := rfl
  uses := Nat.le_refl 0

theorem write (h : m.Measures values) (now : Instant) (key : String) (v : Json) :
    (m.write now key v.byteSize).Measures (values.insert key v) where
  sorted := h.sorted.insert key _
  sizes k := by
    rw [SpaceMetrics.write, Table.get?_insert, Table.get?_insert]
    split
    · rfl
    · exact h.sizes k
  total := total_eq _
  uses := by
    have hused : ((m.keys.get? key).getD (.unused now v.byteSize)).accessCount =
        (m.keys.get? key).elim 0 KeyMetrics.accessCount := by
      cases m.keys.get? key <;> rfl
    have huses := h.uses
    change Table.sum KeyMetrics.accessCount (m.keys.insert key _) ≤ m.accessCount + 1
    generalize (m.keys.get? key).getD (.unused now v.byteSize) = used at hused ⊢
    have hsum := h.sorted.sum_insert KeyMetrics.accessCount key { used with
      accessCount := used.accessCount + 1, sizeBytes := v.byteSize, lastModified := now }
    dsimp only at hsum
    omega

theorem read (h : m.Measures values) (now : Instant) (key : Option String) :
    (m.read now key).Measures values := by
  have huses := h.uses
  cases key with
  | none => exact ⟨h.sorted, h.sizes, h.total, Nat.le_succ_of_le huses⟩
  | some key =>
    cases hused : m.keys.get? key with
    | none =>
      simp only [SpaceMetrics.read, hused]
      exact ⟨h.sorted, h.sizes, h.total, Nat.le_succ_of_le huses⟩
    | some used =>
      simp only [SpaceMetrics.read, hused]
      refine ⟨h.sorted.insert key _, fun k => ?_, ?_, ?_⟩
      · rw [← h.sizes k, Table.get?_insert]
        split
        · rename_i hk
          rw [hk, hused]
          rfl
        · rfl
      · have hsum := h.sorted.sum_insert KeyMetrics.sizeBytes key
          { used with accessCount := used.accessCount + 1, lastAccessed := now }
        have htotal := h.total
        simp only [hused, Option.elim_some] at hsum ⊢
        omega
      · have hsum := h.sorted.sum_insert KeyMetrics.accessCount key
          { used with accessCount := used.accessCount + 1, lastAccessed := now }
        simp only [hused, Option.elim_some] at hsum ⊢
        omega

theorem forget (h : m.Measures values) (key : String) :
    (m.forget key).Measures (values.erase key) where
  sorted := h.sorted.erase key
  sizes k := by
    rw [SpaceMetrics.forget, Table.get?_erase, Table.get?_erase]
    split
    · rfl
    · exact h.sizes k
  total := total_eq _
  uses := by
    have hsum := h.sorted.sum_erase KeyMetrics.accessCount key
    have huses := h.uses
    simp only [SpaceMetrics.forget] at hsum ⊢
    omega

/-- Writing values one after the other keeps the metrics up with them. -/
theorem writes (h : m.Measures values) (now : Instant) (es : List (String × Json)) :
    (es.foldl (fun m e => m.write now e.1 e.2.byteSize) m).Measures (values.insertAll es) := by
  induction es generalizing m values with
  | nil => exact h
  | cons e es ih => exact ih (h.write now e.1 e.2)

/-- The keys that have metrics are those that have values, with the lengths of these. -/
theorem sizes_eq (h : m.Measures values) (hv : values.Sorted) :
    m.keys.map KeyMetrics.sizeBytes = values.map Json.byteSize := by
  refine (h.sorted.map _).ext (hv.map _) fun key => ?_
  rw [Table.get?_map, Table.get?_map]
  exact h.sizes key

end Measures
end SpaceMetrics

theorem Values.space_insert (vs : Values) (ns : String) (t : Table Json) (ns' : String) :
    Values.space (vs.insert ns t) ns' = if ns' = ns then t else vs.space ns' := by
  rw [space, Table.get?_insert]
  split <;> rfl

theorem Values.space_erase (vs : Values) (ns ns' : String) :
    Values.space (vs.erase ns) ns' = if ns' = ns then .empty else vs.space ns' := by
  rw [space, Table.get?_erase]
  split <;> rfl

namespace StoreData
variable {d : StoreData} {now : Instant}

/-- The metrics of a namespace; one that was not used has some too. -/
def measure (d : StoreData) (now : Instant) (ns : String) : SpaceMetrics :=
  (d.metrics.get? ns).getD (.unused now)

/-- The metrics of every namespace are those of its values. -/
def Measured (d : StoreData) : Prop :=
  ∀ now ns, (d.measure now ns).Measures (d.values.space ns)

/-- A namespace that was not used before is used from the first write on, if there is one. -/
theorem recordWrites_measure (now : Instant) (ns : String) (values : Table Json) (d : StoreData)
    (later : Instant) (ns' : String) : ∃ first, (d.recordWrites now ns values).measure later ns' =
      if ns' = ns then
        values.entries.foldl (fun m e => m.write now e.1 e.2.byteSize) (d.measure first ns)
      else d.measure later ns' := by
  by_cases hes : values.entries = []
  · refine ⟨later, ?_⟩
    rw [measure, recordWrites_metrics]
    by_cases hns : ns' = ns
    · simp [hns, hes, measure]
    · simp [hns, measure]
  · refine ⟨now, ?_⟩
    rw [measure, recordWrites_metrics]
    by_cases hns : ns' = ns
    · simp [hns, hes, measure]
    · simp [hns, measure]

namespace Measured

theorem write (h : d.Measured) (ns key : String) (v : Json) : (d.write now ns key v).Measured := by
  intro later ns'
  rw [StoreData.write, recordWrite, measure, Table.get?_insert, Values.put, Values.space_insert]
  split
  · exact (h now ns).write now key v
  · exact h later ns'

theorem look (h : d.Measured) (ns : String) (key : Option String) :
    (d.look now ns key).Measured := by
  unfold StoreData.look recordRead
  split
  · split
    · rename_i m hm
      intro later ns'
      rw [measure, Table.get?_insert]
      split
      · rename_i hns
        have hread := (h now ns).read now key
        rw [measure, hm] at hread
        rw [hns]
        exact hread
      · exact h later ns'
    · exact h
  · exact h

theorem extend (h : d.Measured) (ns : String) (values : Table Json) :
    (d.extend now ns values).Measured := by
  intro later ns'
  obtain ⟨first, hfirst⟩ := recordWrites_measure now ns values
    { d with values := d.values.putAll ns values } later ns'
  rw [StoreData.extend, hfirst, recordWrites_values, Values.putAll, Values.space_insert]
  split
  · exact (h first ns).writes now values.entries
  · exact h later ns'

theorem replace {values : Table Json} (h : d.Measured) (hv : values.Sorted) (ns : String) :
    (d.replace now ns values).Measured := by
  intro later ns'
  obtain ⟨first, hfirst⟩ := recordWrites_measure now ns values
    ⟨d.values.insert ns values, d.metrics.erase ns⟩ later ns'
  rw [StoreData.replace, hfirst, recordWrites_values, Values.space_insert]
  split
  · have hwrites := (SpaceMetrics.Measures.unused first).writes now values.entries
    rw [show Table.empty.insertAll values.entries = values from hv.ofList_entries] at hwrites
    rw [measure, Table.get?_erase_self]
    exact hwrites
  · rename_i hns
    rw [measure, Table.get?_erase, if_neg hns]
    exact h later ns'

theorem removeKey (h : d.Measured) (ns key : String) : (d.removeKey ns key).Measured := by
  have hns (now : Instant) := h now ns
  unfold StoreData.removeKey
  split
  · exact h
  · rename_i v hv hm
    have hsize := (hns default).sizes key
    rw [measure, hm, Values.get?_space, show d.values.value? ns key = some v from hv] at hsize
    cases hsize
  · rename_i v m hv hm
    obtain ⟨values, hvalues, -⟩ := Option.bind_eq_some_iff.mp hv
    have hforget := (hns default).forget key
    rw [measure, hm, Values.space, hvalues] at hforget
    intro later ns'
    rw [Values.remove_key hvalues, measure, Table.get?_insert, Values.space_insert]
    split
    · exact hforget
    · exact h later ns'

theorem remove (h : d.Measured) (ns : String) (key : Option String) :
    (d.remove ns key).Measured := by
  cases key with
  | none =>
    intro later ns'
    rw [StoreData.remove, removeSpace, measure, Table.get?_erase, Values.space_erase]
    split
    · exact .unused later
    · exact h later ns'
  | some key => exact h.removeKey ns key

theorem merge (h : d.Measured) (ns : String) (values : Table Json) (strategy : MergeStrategy) :
    (d.merge now ns values strategy).data.Measured := by
  refine merge_keeps Measured.write ns values strategy fun later ns' => ?_
  rw [Values.ensure, Values.space_insert]
  split
  · rename_i hns
    rw [← hns]
    exact h later ns'
  · exact h later ns'

end Measured

theorem measured_invariant : Invariant Measured where
  write := Measured.write
  look := Measured.look
  extend := Measured.extend
  replace := Measured.replace
  remove := Measured.remove
  merge := Measured.merge

end StoreData

namespace Store
variable {env : Environment σ} {s t : Store σ} {steps : List (StoreStep σ)}

theorem Run.measured (h : Run env s steps t) (hs : s.Fresh) : t.data.Measured := by
  apply h.keeps_ordered (P := fun t => t.data.Measured) (Q := fun _ => True)
  · intro step _ hordered hbefore
    exact perform_keeps StoreData.measured_invariant hordered.history hbefore (step.perform_eq env)
  · exact fun s t ha hs => ha.data ▸ hs
  · exact hs.ordered
  · exact fun _ _ => trivial
  · rw [hs.data]
    exact fun now _ => .unused now

end Store

open Store in
/-- The metrics agree with the values, whatever calls were made to a store. In every namespace the
keys with metrics are those with values, each with the length of its value; the length of the
namespace is the sum of these, and it counts at least as many uses as its keys together. -/
theorem metrics_agree {env : Environment σ} {s t : Store σ} {steps : List (StoreStep σ)}
    (h : Run env s steps t) (hs : s.Fresh) (ns : String) :
    let m := (t.metrics? ns).getD (.unused t.now)
    m.keys.map KeyMetrics.sizeBytes = (t.data.values.space ns).map Json.byteSize ∧
      m.sizeBytes = m.keys.sum KeyMetrics.sizeBytes ∧
      m.keys.sum KeyMetrics.accessCount ≤ m.accessCount := by
  have hmeasures := h.measured hs t.now ns
  have hsorted := (hs.ordered.run h).data.space ns
  exact ⟨hmeasures.sizes_eq hsorted, hmeasures.total, hmeasures.uses⟩

/-- A namespace gets a value, is merged with that key and another one, looked at, and loses the
other key again. It was used three times and the key that is left once. -/
theorem metrics_agree_merge :
    let calls : List (Actor × StoreCall) := [(.system, .set "a" "k" (.bool true) .default),
      (.system, .merge "a" (.ofList [("j", .null), ("k", .bool false)]) .keep),
      (.system, .readSpace "a"), (.system, .delete "a" (some "j"))]
    let t := (Store.follow .inMemory (.blank .empty) calls).2
    let m : SpaceMetrics :=
      ⟨3, 4, t.now, t.now, .singleton "k" ⟨1, 4, t.now, t.now, t.now⟩⟩
    t.metrics? "a" = some m ∧ t.data.space? "a" = some (.singleton "k" (.bool true)) ∧
      m.keys.map KeyMetrics.sizeBytes = (t.data.values.space "a").map Json.byteSize ∧
      m.sizeBytes = m.keys.sum KeyMetrics.sizeBytes ∧
      m.keys.sum KeyMetrics.accessCount ≤ m.accessCount := by
  intro calls t m
  have hm : t.metrics? "a" = some m := rfl
  have hagree := metrics_agree (Store.follow_run .inMemory (.blank Table.empty) calls)
    (Store.blank_fresh _) "a"
  change let m := (t.metrics? "a").getD (.unused t.now); _ at hagree
  rw [hm] at hagree
  exact ⟨hm, rfl, hagree⟩

end Workflow
