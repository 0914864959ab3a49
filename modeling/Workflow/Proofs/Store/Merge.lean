import Workflow.Proofs.Store.Data

/-!
# What a merge has written

A merge of values under different keys has written some of them: for each of these the conflicts
show the value that was there before, and everything else is as it was. What a merge reports of a
key depends on the value of this key alone, and if values are kept, only on whether there is one.
-/
namespace Workflow

theorem MergeStrategy.settle_reported {s : MergeStrategy} (h : s ≠ .keep) (prior incoming : Json) :
    (s.settle prior incoming).2 = prior := by
  cases s with
  | keep => exact absurd rfl h
  | overwrite => rfl
  | merge =>
    unfold settle
    dsimp only
    split <;> rfl

namespace StoreData
variable {d : StoreData} {now : Instant} {ns : String}

/-- What is written in a merge is there, and the conflicts tell what was there before; what is not
written is as before. -/
structure Merging (d : StoreData) (ns : String) (m : Merged) : Prop where
  written : ∀ e ∈ m.written,
    m.data.value? ns e.1 = some e.2 ∧ m.conflicts.get? e.1 = d.value? ns e.1
  others : ∀ ns' key', (∀ e ∈ m.written, ¬(ns' = ns ∧ key' = e.1)) →
    m.data.value? ns' key' = d.value? ns' key'

/-- A merge has not yet come to a key. -/
structure Merged.Untouched (m : Merged) (key : String) : Prop where
  unwritten : ∀ e ∈ m.written, e.1 ≠ key
  settled : m.conflicts.get? key = none

theorem Merged.Untouched.member {m : Merged} {key : String} {e : String × Json}
    (h : m.Untouched key) (hne : key ≠ e.1) (s : MergeStrategy) :
    (mergeMember s now ns m e).Untouched key := by
  have hwritten (v : Json) : ∀ f ∈ m.written ++ [(e.1, v)], f.1 ≠ key := by
    intro f hf
    rcases List.mem_append.mp hf with hf | hf
    · exact h.unwritten f hf
    · rw [List.mem_singleton.mp hf]
      exact hne.symm
  have hconflicts (v : Json) : (m.conflicts.insert e.1 v).get? key = none := by
    rw [Table.get?_insert_of_ne _ hne]
    exact h.settled
  unfold mergeMember
  dsimp only
  split
  · exact ⟨hwritten _, h.settled⟩
  · split
    · exact ⟨h.unwritten, hconflicts _⟩
    · exact ⟨hwritten _, hconflicts _⟩

namespace Merging
variable {m : Merged} {e : String × Json}

/-- A value is written under a key that was not come to, with what the conflicts tell of it. -/
theorem write (h : d.Merging ns m) (hnew : ∀ f ∈ m.written, f.1 ≠ e.1) (v : Json)
    {conflicts : Table Json} (hsame : ∀ key ≠ e.1, conflicts.get? key = m.conflicts.get? key)
    (hprior : conflicts.get? e.1 = d.value? ns e.1) :
    d.Merging ns ⟨m.data.write now ns e.1 v, conflicts, m.written ++ [(e.1, v)]⟩ where
  written := by
    intro f hf
    rcases List.mem_append.mp hf with hf | hf
    · have hne : f.1 ≠ e.1 := hnew f hf
      rw [value?_write (fun hk => hne hk.2), hsame f.1 hne]
      exact h.written f hf
    · rw [List.mem_singleton.mp hf]
      exact ⟨value?_write_self _ _ _ _ _, hprior⟩
  others := by
    intro ns' key' hkey
    rw [value?_write (hkey (e.1, v) (by simp))]
    exact h.others ns' key' fun f hf => hkey f (List.mem_append_left _ hf)

theorem member (h : d.Merging ns m) (hnew : m.Untouched e.1) (s : MergeStrategy) :
    d.Merging ns (mergeMember s now ns m e) := by
  have hprior : m.data.value? ns e.1 = d.value? ns e.1 := by
    apply h.others
    intro f hf hkey
    exact hnew.unwritten f hf hkey.2.symm
  unfold mergeMember
  dsimp only
  cases hv : m.data.value? ns e.1 with
  | none =>
    dsimp only
    apply h.write hnew.unwritten
    · intro key _
      rfl
    · rw [hnew.settled, ← hprior, hv]
  | some prior =>
    dsimp only
    by_cases hs : s = .keep
    · rw [if_pos hs]
      refine ⟨?_, h.others⟩
      intro f hf
      rw [Table.get?_insert_of_ne _ (hnew.unwritten f hf)]
      exact h.written f hf
    · rw [if_neg hs]
      apply h.write hnew.unwritten
      · intro key hne
        exact Table.get?_insert_of_ne _ hne _
      · rw [Table.get?_insert_self, MergeStrategy.settle_reported hs, ← hprior, hv]

end Merging

theorem merge_merging (d : StoreData) (now : Instant) (ns : String) {values : Table Json}
    (h : values.Sorted) (s : MergeStrategy) : d.Merging ns (d.merge now ns values s) := by
  have members (es : List (String × Json)) (hes : es.Pairwise fun e f => e.1 ≠ f.1) (m : Merged)
      (hm : d.Merging ns m) (hnew : ∀ e ∈ es, m.Untouched e.1) :
      d.Merging ns (es.foldl (mergeMember s now ns) m) := by
    induction hes generalizing m with
    | nil => exact hm
    | @cons e es he _ ih =>
      apply ih
      · exact hm.member (hnew e List.mem_cons_self) s
      · intro f hf
        exact (hnew f (List.mem_cons_of_mem e hf)).member (he f hf).symm s
  apply members values.entries h.distinct
  · constructor
    · exact List.forall_mem_nil _
    · exact fun ns' key' _ => Values.value?_ensure d.values ns ns' key'
  · intro e _
    exact ⟨List.forall_mem_nil _, rfl⟩

/-- What is there after a key has been come to, and what was there if it is reported. -/
theorem mergeMember_value? (s : MergeStrategy) (now : Instant) (ns : String) (m : Merged)
    (e : String × Json) (key : String) : (mergeMember s now ns m e).data.value? ns key =
      if key = e.1 then
        some ((m.data.value? ns key).elim e.2 fun prior => (s.settle prior e.2).1)
      else m.data.value? ns key := by
  by_cases hkey : key = e.1
  · rw [if_pos hkey, hkey]
    unfold mergeMember
    dsimp only
    cases hv : m.data.value? ns e.1 with
    | none => exact value?_write_self _ _ _ _ _
    | some prior =>
      dsimp only
      by_cases hs : s = .keep
      · rw [if_pos hs, hs]
        exact hv
      · rw [if_neg hs]
        exact value?_write_self _ _ _ _ _
  · rw [if_neg hkey]
    exact value?_mergeMember fun h => hkey h.2

theorem mergeMember_conflicts (s : MergeStrategy) (now : Instant) (ns : String) (m : Merged)
    (e : String × Json) (key : String) : (mergeMember s now ns m e).conflicts.get? key =
      if key = e.1 then
        ((m.data.value? ns key).map fun prior => (s.settle prior e.2).2).or
          (m.conflicts.get? key)
      else m.conflicts.get? key := by
  have hconflicts : (mergeMember s now ns m e).conflicts =
      (m.data.value? ns e.1).elim m.conflicts fun prior =>
        m.conflicts.insert e.1 (s.settle prior e.2).2 := by
    unfold mergeMember
    dsimp only
    cases m.data.value? ns e.1 with
    | none => rfl
    | some prior =>
      dsimp only
      split <;> rfl
  rw [hconflicts]
  by_cases hkey : key = e.1
  · rw [if_pos hkey, hkey]
    cases m.data.value? ns e.1 with
    | none => rfl
    | some prior => exact Table.get?_insert_self _ _ _
  · rw [if_neg hkey]
    cases m.data.value? ns e.1 with
    | none => rfl
    | some prior => exact Table.get?_insert_of_ne _ hkey _

end StoreData

/-- Two values, if there are any, that a merge by a strategy does not tell apart: where values are
kept, it does not look at them. -/
def MergeStrategy.Blurs (s : MergeStrategy) (v w : Option Json) : Prop :=
  v = w ∨ s = .keep ∧ v.isSome = w.isSome

namespace MergeStrategy.Blurs
variable {s : MergeStrategy} {v w : Option Json}

theorem reported (h : s.Blurs v w) (incoming : Json) :
    v.map (fun prior => (s.settle prior incoming).2) =
      w.map fun prior => (s.settle prior incoming).2 := by
  obtain rfl | ⟨rfl, h⟩ := h
  · rfl
  · cases v <;> cases w <;> simp_all [settle]

theorem stays (h : s.Blurs v w) (incoming : Json) :
    s.Blurs (some (v.elim incoming fun prior => (s.settle prior incoming).1))
      (some (w.elim incoming fun prior => (s.settle prior incoming).1)) := by
  obtain rfl | ⟨hs, -⟩ := h
  · exact .inl rfl
  · exact .inr ⟨hs, rfl⟩

end MergeStrategy.Blurs

namespace StoreData
variable {d d' : StoreData} {now now' : Instant} {ns : String} {s : MergeStrategy}

/-- What a merge reports of a key depends on the value of this key, as far as the strategy looks at
it. -/
theorem merge_conflicts {key : String} (h : s.Blurs (d.value? ns key) (d'.value? ns key))
    (values : Table Json) :
    (d.merge now ns values s).conflicts.get? key =
      (d'.merge now' ns values s).conflicts.get? key := by
  have members (es : List (String × Json)) (m m' : Merged)
      (hv : s.Blurs (m.data.value? ns key) (m'.data.value? ns key))
      (hc : m.conflicts.get? key = m'.conflicts.get? key) :
      (es.foldl (mergeMember s now ns) m).conflicts.get? key =
        (es.foldl (mergeMember s now' ns) m').conflicts.get? key := by
    induction es generalizing m m' with
    | nil => exact hc
    | cons e es ih =>
      apply ih
      · rw [mergeMember_value?, mergeMember_value?]
        split
        · exact hv.stays e.2
        · exact hv
      · rw [mergeMember_conflicts, mergeMember_conflicts, hc, hv.reported e.2]
  apply members values.entries
  · rw [value?, value?, Values.value?_ensure, Values.value?_ensure]
    exact h
  · rfl

theorem merge_conflicts_none {key : String} {values : Table Json} (h : key ∉ values.keys)
    (d : StoreData) (now : Instant) (ns : String) (s : MergeStrategy) :
    (d.merge now ns values s).conflicts.get? key = none := by
  refine List.foldlRecOn (motive := fun m : Merged => m.conflicts.get? key = none)
    values.entries _ rfl fun m hm e he => ?_
  have hne : key ≠ e.1 := by
    rintro rfl
    exact h (List.mem_map_of_mem he)
  rw [mergeMember_conflicts, if_neg hne]
  exact hm

theorem merge_conflicts_sorted (d : StoreData) (now : Instant) (ns : String)
    (values : Table Json) (s : MergeStrategy) : (d.merge now ns values s).conflicts.Sorted := by
  refine List.foldlRecOn (motive := fun m : Merged => m.conflicts.Sorted) values.entries _
    List.Pairwise.nil fun m hm e _ => ?_
  unfold mergeMember
  dsimp only
  split
  · exact hm
  · split
    · exact hm.insert _ _
    · exact hm.insert _ _

/-- Merges report the same if their strategy does not tell the values of their keys apart. -/
theorem merge_conflicts_congr {values : Table Json}
    (h : ∀ key ∈ values.keys, s.Blurs (d.value? ns key) (d'.value? ns key)) :
    (d.merge now ns values s).conflicts = (d'.merge now' ns values s).conflicts := by
  refine (merge_conflicts_sorted _ _ _ _ _).ext (merge_conflicts_sorted _ _ _ _ _) fun key => ?_
  by_cases hkey : key ∈ values.keys
  · exact merge_conflicts (h key hkey) values
  · rw [merge_conflicts_none hkey, merge_conflicts_none hkey]

theorem foldl_mergeMember_value? {es : List (String × Json)}
    (hes : es.Pairwise fun e f => e.1 ≠ f.1) (s : MergeStrategy) (now : Instant) (ns : String)
    (m : Merged) (key : String) : (es.foldl (mergeMember s now ns) m).data.value? ns key =
      (Table.lookup key es).elim (m.data.value? ns key) fun incoming =>
        some ((m.data.value? ns key).elim incoming fun prior => (s.settle prior incoming).1) := by
  induction hes generalizing m with
  | nil => rfl
  | @cons e es he _ ih =>
    rw [List.foldl_cons, ih, mergeMember_value?, Table.lookup]
    by_cases hkey : key = e.1
    · have hrest : Table.lookup key es = none :=
        Table.lookup_eq_none fun f hf heq => he f hf (hkey.symm.trans heq.symm)
      rw [hrest, if_pos hkey, if_pos hkey]
      rfl
    · rw [if_neg hkey, if_neg hkey]

theorem foldl_mergeMember_conflicts {es : List (String × Json)}
    (hes : es.Pairwise fun e f => e.1 ≠ f.1) (s : MergeStrategy) (now : Instant) (ns : String)
    (m : Merged) (key : String) : (es.foldl (mergeMember s now ns) m).conflicts.get? key =
      ((Table.lookup key es).bind fun incoming =>
        (m.data.value? ns key).map fun prior => (s.settle prior incoming).2).or
        (m.conflicts.get? key) := by
  induction hes generalizing m with
  | nil => rfl
  | @cons e es he _ ih =>
    rw [List.foldl_cons, ih, mergeMember_value?, mergeMember_conflicts, Table.lookup]
    by_cases hkey : key = e.1
    · have hrest : Table.lookup key es = none :=
        Table.lookup_eq_none fun f hf heq => he f hf (hkey.symm.trans heq.symm)
      rw [hrest, if_pos hkey, if_pos hkey, if_pos hkey]
      rfl
    · rw [if_neg hkey, if_neg hkey, if_neg hkey]

/-- What a key of the namespace has after a merge. -/
theorem merge_value? (d : StoreData) (now : Instant) (ns : String) {values : Table Json}
    (h : values.Sorted) (s : MergeStrategy) (key : String) :
    (d.merge now ns values s).data.value? ns key =
      (values.get? key).elim (d.value? ns key) fun incoming =>
        some ((d.value? ns key).elim incoming fun prior => (s.settle prior incoming).1) := by
  have hstart : StoreData.value? { d with values := d.values.ensure ns } ns key = d.value? ns key :=
    Values.value?_ensure _ _ _ _
  rw [merge, foldl_mergeMember_value? h.distinct, hstart]
  rfl

/-- What a merge reports of a key. -/
theorem merge_conflicts_get? (d : StoreData) (now : Instant) (ns : String) {values : Table Json}
    (h : values.Sorted) (s : MergeStrategy) (key : String) :
    (d.merge now ns values s).conflicts.get? key = (values.get? key).bind fun incoming =>
      (d.value? ns key).map fun prior => (s.settle prior incoming).2 := by
  have hstart : StoreData.value? { d with values := d.values.ensure ns } ns key = d.value? ns key :=
    Values.value?_ensure _ _ _ _
  rw [merge, foldl_mergeMember_conflicts h.distinct, hstart, Table.get?_empty, Option.or_none]
  rfl

/-- Where prior values are reported, they are those of the keys that have an incoming one. -/
theorem merge_conflicts_reported (d : StoreData) (now : Instant) (ns : String) {values : Table Json}
    (h : values.Sorted) {s : MergeStrategy} (hs : s ≠ .keep) (key : String) :
    (d.merge now ns values s).conflicts.get? key =
      (values.get? key).bind fun _ => d.value? ns key := by
  rw [merge_conflicts_get? d now ns h]
  refine congrArg _ (funext fun incoming => ?_)
  cases d.value? ns key with
  | none => rfl
  | some prior => exact congrArg some (MergeStrategy.settle_reported hs prior incoming)

/-- Merging what a merge has reported over what it has left brings the prior values back. -/
theorem merge_undone (d : StoreData) (now now' : Instant) (ns : String) {values : Table Json}
    (h : values.Sorted) {s : MergeStrategy} (hs : s ≠ .keep) {key : String} {prior : Json}
    (hprior : d.value? ns key = some prior) :
    ((d.merge now ns values s).data.merge now' ns (d.merge now ns values s).conflicts
      .overwrite).data.value? ns key = some prior := by
  rw [merge_value? _ _ _ (d.merge_conflicts_sorted now ns values s),
    d.merge_conflicts_reported now ns h hs, d.merge_value? now ns h, hprior]
  cases values.get? key <;> rfl

/-- Nothing of another namespace changes in a merge. -/
theorem space?_merge {ns' : String} (h : ns' ≠ ns) (d : StoreData) (now : Instant)
    (values : Table Json) (s : MergeStrategy) :
    (d.merge now ns values s).data.space? ns' = d.space? ns' := by
  have write (d : StoreData) (key : String) (v : Json) :
      (d.write now ns key v).space? ns' = d.space? ns' := Table.get?_insert_of_ne _ h _
  have member (m : Merged) (e : String × Json) :
      (mergeMember s now ns m e).data.space? ns' = m.data.space? ns' := by
    unfold mergeMember
    dsimp only
    split
    · exact write _ _ _
    · split
      · rfl
      · exact write _ _ _
  refine List.foldlRecOn (motive := fun m : Merged => m.data.space? ns' = d.space? ns')
    values.entries _ ?_ fun m hm e _ => (member m e).trans hm
  exact Table.get?_insert_of_ne _ h _

end StoreData
end Workflow
