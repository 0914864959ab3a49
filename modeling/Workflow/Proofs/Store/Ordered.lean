import Workflow.Proofs.Store.Runs

/-!
# Namespaces in key order

The values of every namespace stand in key order, whatever is done to a store. A namespace that is
replaced by values in key order is afterwards as if each of them had been written to it once.
-/
namespace Workflow
variable {σ : Type}

namespace Values

def Ordered (vs : Values) : Prop := ∀ ns t, vs.get? ns = some t → t.Sorted

namespace Ordered
variable {vs : Values} {t : Table Json}

theorem empty : Ordered .empty := fun _ _ h => nomatch h

theorem space (h : vs.Ordered) (ns : String) : (vs.space ns).Sorted := by
  unfold Values.space
  cases hns : vs.get? ns with
  | none => exact List.Pairwise.nil
  | some t => exact h ns t hns

theorem insert (h : vs.Ordered) (ht : t.Sorted) (ns : String) : Ordered (vs.insert ns t) := by
  intro ns' t' h'
  rw [Table.get?_insert] at h'
  split at h'
  · cases h'
    exact ht
  · exact h ns' t' h'

theorem put (h : vs.Ordered) (ns key : String) (v : Json) : (vs.put ns key v).Ordered :=
  h.insert ((h.space ns).insert key v) ns

theorem putAll (h : vs.Ordered) (ns : String) (values : Table Json) :
    (vs.putAll ns values).Ordered :=
  h.insert ((h.space ns).insertAll values.entries) ns

theorem ensure (h : vs.Ordered) (ns : String) : (vs.ensure ns).Ordered :=
  h.insert (h.space ns) ns

theorem erase (h : vs.Ordered) (ns : String) : Ordered (vs.erase ns) := by
  intro ns' t' h'
  rw [Table.get?_erase] at h'
  split at h'
  · cases h'
  · exact h ns' t' h'

theorem remove (h : vs.Ordered) (ns : String) (key : Option String) :
    (vs.remove ns key).Ordered := by
  unfold Values.remove
  split
  · exact h
  · rename_i t k ht
    exact h.insert ((h ns t ht).erase k) ns
  · exact h.erase ns

end Ordered
end Values

theorem Table.Sorted.remove {vs : Values} (h : vs.Sorted) (ns : String) (key : Option String) :
    (vs.remove ns key).Sorted := by
  unfold Values.remove
  split
  · exact h
  · exact h.insert ns _
  · exact h.erase ns

namespace SpaceMetrics

/-- The metrics of a namespace to which some values were written, each of them once. -/
def ofValues (now : Instant) (values : Table Json) : SpaceMetrics :=
  let keys := values.map fun v => ⟨1, v.byteSize, now, now, now⟩
  ⟨values.size, total keys, now, now, keys⟩

theorem write_ofValues {es : List (String × Json)} {key : String} (h : ∀ e ∈ es, e.1 < key)
    (now : Instant) (v : Json) :
    (ofValues now ⟨es⟩).write now key v.byteSize = ofValues now ⟨es ++ [(key, v)]⟩ := by
  let used (size : Nat) : KeyMetrics := ⟨1, size, now, now, now⟩
  have hkeys : ∀ e ∈ es.map (fun e => (e.1, used e.2.byteSize)), e.1 < key :=
    List.forall_mem_map.mpr h
  have hunused : (ofValues now ⟨es⟩).keys.get? key = none := by
    apply Table.lookup_eq_none
    intro e he heq
    exact String.lt_irrefl key (heq ▸ hkeys e he)
  have hinsert : (ofValues now ⟨es⟩).keys.insert key (used v.byteSize) =
      (ofValues now ⟨es ++ [(key, v)]⟩).keys := by
    simp [ofValues, Table.insert, Table.map, Table.insertEntry_of_last hkeys, used]
  have hwrite : (ofValues now ⟨es⟩).write now key v.byteSize =
      ⟨es.length + 1, total ((ofValues now ⟨es⟩).keys.insert key (used v.byteSize)), now, now,
        (ofValues now ⟨es⟩).keys.insert key (used v.byteSize)⟩ := by
    rw [write, hunused]
    rfl
  rw [hwrite, hinsert]
  simp [ofValues, Table.size]

theorem foldl_write_ofValues {es : List (String × Json)} (now : Instant)
    (before : List (String × Json))
    (h : (before ++ es).Pairwise fun e f => e.1 < f.1) :
    es.foldl (fun m e => write m now e.1 e.2.byteSize) (ofValues now ⟨before⟩) =
      ofValues now ⟨before ++ es⟩ := by
  induction es generalizing before with
  | nil => simp
  | cons e es ih =>
    have hlast : ∀ f ∈ before, f.1 < e.1 := by
      intro f hf
      exact (List.pairwise_append.mp h).2.2 f hf e List.mem_cons_self
    rw [List.foldl_cons, write_ofValues hlast, ih, List.append_assoc]
    · rfl
    · simpa using h

end SpaceMetrics

namespace StoreData
variable {d : StoreData} {now : Instant} {ns ns' : String} {values : Table Json}

theorem recordWrites_metrics (now : Instant) (ns : String) (values : Table Json) (d : StoreData) :
    (d.recordWrites now ns values).metrics.get? ns' =
      if ns' = ns ∧ values.entries ≠ [] then
        some (values.entries.foldl (fun m e => m.write now e.1 e.2.byteSize)
          ((d.metrics.get? ns).getD (.unused now)))
      else d.metrics.get? ns' := by
  unfold recordWrites
  induction values.entries generalizing d with
  | nil => simp
  | cons e es ih =>
    rw [List.foldl_cons, ih]
    by_cases hns : ns' = ns
    · by_cases hes : es = []
      · simp [hns, hes, recordWrite]
      · simp [hns, hes, recordWrite]
    · simp [hns, recordWrite, Table.get?_insert]

theorem replace_space? (d : StoreData) (now : Instant) (ns : String) (values : Table Json) :
    (d.replace now ns values).space? ns' = if ns' = ns then some values else d.space? ns' := by
  rw [space?, replace, recordWrites_values, Table.get?_insert]
  rfl

theorem replace_metrics (h : values.Sorted) (d : StoreData) (now : Instant) (ns : String) :
    (d.replace now ns values).metrics.get? ns' =
      if ns' = ns then
        if values.entries = [] then none else some (.ofValues now values)
      else d.metrics.get? ns' := by
  have hfold : values.entries.foldl (fun m e => m.write now e.1 e.2.byteSize) (.unused now) =
      SpaceMetrics.ofValues now values := SpaceMetrics.foldl_write_ofValues now [] h
  rw [replace, recordWrites_metrics]
  by_cases hns : ns' = ns
  · by_cases hes : values.entries = []
    · simp [hns, hes]
    · simpa [hns, hes] using hfold
  · simp [hns, Table.get?_erase]

def Ordered (d : StoreData) : Prop := d.values.Ordered

namespace Ordered

theorem write (h : d.Ordered) (ns key : String) (v : Json) : (d.write now ns key v).Ordered :=
  Values.Ordered.put h ns key v

theorem look (h : d.Ordered) (ns : String) (key : Option String) : (d.look now ns key).Ordered := by
  unfold StoreData.look
  split
  · rw [Ordered, recordRead_values]
    exact h
  · exact h

theorem extend (h : d.Ordered) (ns : String) (values : Table Json) :
    (d.extend now ns values).Ordered := by
  rw [Ordered, StoreData.extend, recordWrites_values]
  exact Values.Ordered.putAll h ns values

theorem replace (h : d.Ordered) (hv : values.Sorted) (ns : String) :
    (d.replace now ns values).Ordered := by
  rw [Ordered, StoreData.replace, recordWrites_values]
  exact Values.Ordered.insert h hv ns

theorem remove (h : d.Ordered) (ns : String) (key : Option String) : (d.remove ns key).Ordered := by
  cases key with
  | none => exact Values.Ordered.erase h ns
  | some key =>
    change (d.removeKey ns key).Ordered
    unfold removeKey
    split
    · exact h
    · exact Values.Ordered.remove h ns (some key)
    · exact Values.Ordered.remove h ns (some key)

end Ordered

/-- What is kept by writing a value, a merge keeps. -/
theorem merge_keeps {P : StoreData → Prop}
    (hwrite : ∀ {d}, P d → ∀ ns key v, P (d.write now ns key v)) (ns : String)
    (values : Table Json) (strategy : MergeStrategy)
    (h : P { d with values := d.values.ensure ns }) : P (d.merge now ns values strategy).data := by
  have member (m : Merged) (hm : P m.data) (e : String × Json) :
      P (mergeMember strategy now ns m e).data := by
    unfold mergeMember
    dsimp only
    split
    · exact hwrite hm ns _ _
    · split
      · exact hm
      · exact hwrite hm ns _ _
  have members (es : List (String × Json)) (m : Merged) (hm : P m.data) :
      P (es.foldl (mergeMember strategy now ns) m).data := by
    induction es generalizing m with
    | nil => exact hm
    | cons e es ih => exact ih _ (member m hm e)
  exact members values.entries _ h

/-- What is kept by all that calls do to data, as long as what is restored stands in key order. -/
structure Invariant (P : StoreData → Prop) : Prop where
  write : ∀ {d now}, P d → ∀ ns key v, P (d.write now ns key v)
  look : ∀ {d now}, P d → ∀ ns key, P (d.look now ns key)
  extend : ∀ {d now}, P d → ∀ ns values, P (d.extend now ns values)
  replace : ∀ {d now values}, P d → values.Sorted → ∀ ns, P (d.replace now ns values)
  remove : ∀ {d}, P d → ∀ ns key, P (d.remove ns key)
  merge : ∀ {d now}, P d → ∀ ns values strategy, P (d.merge now ns values strategy).data

theorem ordered_invariant : Invariant Ordered where
  write := Ordered.write
  look := Ordered.look
  extend := Ordered.extend
  replace := Ordered.replace
  remove := Ordered.remove
  merge h ns values strategy := merge_keeps Ordered.write ns values strategy (h.ensure ns)

/-- The namespaces stand in key order too. -/
theorem sorted_invariant : Invariant fun d => d.values.Sorted where
  write h ns _ _ := h.insert ns _
  look {d now} h ns key := by
    unfold look
    split
    · rw [recordRead_values]
      exact h
    · exact h
  extend h ns _ := by
    rw [StoreData.extend, recordWrites_values]
    exact h.insert ns _
  replace h _ ns := by
    rw [StoreData.replace, recordWrites_values]
    exact h.insert ns _
  remove {d} h ns key := by
    cases key with
    | none => exact h.erase ns
    | some key =>
      change (d.removeKey ns key).values.Sorted
      unfold removeKey
      split
      · exact h
      · exact h.remove ns (some key)
      · exact h.remove ns (some key)
  merge h ns values strategy :=
    merge_keeps (P := fun d => d.values.Sorted) (fun h ns _ _ => Table.Sorted.insert h ns _)
      ns values strategy (h.insert ns _)

end StoreData

namespace Store
variable {env : Environment σ} {actor : Actor} {call : StoreCall} {s t : Store σ}
  {r : Except StoreError StoreAnswer}

/-- All values that a store has or had stand in key order. -/
structure Ordered (s : Store σ) : Prop where
  data : s.data.Ordered
  history : ∀ snap ∈ s.history, snap.values.Sorted

theorem snapshot?_mem {id : Nat} {snap : Snapshot} (h : s.snapshot? id = some snap) :
    snap ∈ s.history := by
  unfold snapshot? at h
  split at h
  · cases h
  · exact List.mem_of_getElem? h

theorem loadAll_keeps {P : StoreData → Prop} (hP : StoreData.Invariant P) {b : Backend σ}
    {spaces : List String} {n : Nat} (h : loadAll b spaces s = (.ok n, t)) (hs : P s.data) :
    P t.data := by
  induction spaces generalizing s n with
  | nil =>
    cases h
    exact hs
  | cons ns spaces ih =>
    rw [loadAll, onOutside_bind] at h
    cases hload : (b.loadSpace ns s.outside).1 with
    | none =>
      simp only [hload] at h
      exact ih h hs
    | some values =>
      simp only [hload] at h
      rw [Attempt.modify_bind] at h
      obtain ⟨e, -, he⟩ | ⟨m, v, hrest, h⟩ := Attempt.bind_cases h
      · cases he
      · cases h
        exact ih hrest (hP.extend hs ns values)

theorem perform_keeps {P : StoreData → Prop} (hP : StoreData.Invariant P)
    (hhistory : ∀ snap ∈ s.history, snap.values.Sorted) (hs : P s.data)
    (h : call.perform env actor s = (r, t)) : P t.data := by
  have after {u : Store σ} (hn : Noted env actor u t) (hd : P u.data) : P t.data := hn.data ▸ hd
  cases StoreCall.perform_ends h with
  | failed hn => exact after hn hs
  | kept _ hn => exact after hn hs
  | @set ns key v _ _ hn => exact after hn (by simpa using hP.write hs ns key v)
  | read hn => exact after hn (hP.look hs _ _)
  | readSpace hn => exact after hn (hP.look hs _ _)
  | @delete ns key _ _ hn hd =>
    rw [(dropped_elsewhere hd).data, hn.data]
    exact hP.remove hs ns key
  | @undeleted ns key _ _ _ hn hd =>
    rw [(dropped_elsewhere hd).data, hn.data]
    exact hP.remove hs ns key
  | contains hn => exact after hn hs
  | keys => exact hs
  | append _ hn => exact after hn (hP.write hs _ _ _)
  | @merge ns values strategy _ hn =>
    exact after hn (by simpa using hP.merge hs ns values strategy)
  | snapshot hn => exact after hn hs
  | unknown _ hn => exact after hn hs
  | restore hsnap hn => exact after hn (hP.replace hs (hhistory _ (snapshot?_mem hsnap)) _)
  | unwritten hw hn => exact after hn ((writePayload_cases hw).data ▸ hs)
  | @savePayload ns key _ _ _ _ _ hw hn =>
    apply after hn
    rw [overwrite_data, (writePayload_cases hw).data]
    exact hP.write hs ns key _
  | @payload _ ns key _ _ _ _ _ hu _ hn =>
    exact after hn (hu.data ▸ hP.look hs ns (some key))
  | unlisted _ _ hl hn => exact after hn ((storedSpaces_elsewhere hl).data ▸ hs)
  | save _ hl hsync hn =>
    have hlisted := trans_of Elsewhere (storedSpaces_elsewhere hl) (onOutside_elsewhere hsync)
    exact after hn (hlisted.data ▸ hs)
  | load _ hl hload hn =>
    exact after hn (loadAll_keeps hP hload ((storedSpaces_elsewhere hl).data ▸ hs))
  | deleteStored _ hd hn => exact after hn ((onOutside_elsewhere hd).data ▸ hs)

namespace Ordered

theorem perform (hs : s.Ordered) (h : call.perform env actor s = (r, t)) : t.Ordered where
  data := perform_keeps StoreData.ordered_invariant hs.history hs.data h
  history := by
    intro snap hsnap
    obtain ⟨ns, -, -, ht⟩ | ⟨-, ht⟩ := perform_history h
    · rw [ht] at hsnap
      rcases List.mem_append.mp hsnap with hsnap | hsnap
      · exact hs.history snap hsnap
      · rw [List.mem_singleton.mp hsnap]
        exact hs.data.space ns
    · exact hs.history snap (ht ▸ hsnap)

theorem aside (hs : s.Ordered) (ha : Aside s t) : t.Ordered where
  data := ha.data ▸ hs.data
  history := ha.history ▸ hs.history

theorem run {steps : List (StoreStep σ)} (hs : s.Ordered) (h : Run env s steps t) :
    t.Ordered := by
  apply h.keeps (P := Ordered) (Q := fun _ => True)
  · exact fun step _ hs => hs.perform (step.perform_eq env)
  · exact fun s t ha hs => hs.aside ha
  · exact fun _ _ => trivial
  · exact hs

end Ordered

/-- What calls keep that are made to ordered stores, runs from an ordered store keep. -/
theorem Run.keeps_ordered {steps : List (StoreStep σ)} {P : Store σ → Prop}
    {Q : StoreStep σ → Prop}
    (hcall : ∀ step, Q step → step.before.Ordered → P step.before → P (step.after env))
    (haside : ∀ s t, Aside s t → P s → P t) (h : Run env s steps t) (hs : s.Ordered)
    (hq : ∀ step ∈ steps, Q step) (hp : P s) : P t := by
  have hkeeps : t.Ordered ∧ P t := by
    apply h.keeps (P := fun t => t.Ordered ∧ P t) _ _ hq ⟨hs, hp⟩
    · rintro step hstep ⟨hordered, hbefore⟩
      exact ⟨hordered.perform (step.perform_eq env), hcall step hstep hordered hbefore⟩
    · rintro s t ha ⟨hordered, hbefore⟩
      exact ⟨hordered.aside ha, haside s t ha hbefore⟩
  exact hkeeps.2

theorem Fresh.ordered (h : s.Fresh) : s.Ordered where
  data := by
    rw [h.data]
    exact Values.Ordered.empty
  history := by simp [h.history]

/-- The namespaces of a store to which calls were made stand in key order. -/
theorem Run.sorted {steps : List (StoreStep σ)} (h : Run env s steps t) (hs : s.Fresh) :
    t.data.values.Sorted := by
  apply h.keeps_ordered (P := fun t => t.data.values.Sorted) (Q := fun _ => True)
  · intro step _ hordered hbefore
    exact perform_keeps StoreData.sorted_invariant hordered.history hbefore (step.perform_eq env)
  · exact fun s t ha hs => ha.data ▸ hs
  · exact hs.ordered
  · exact fun _ _ => trivial
  · rw [hs.data]
    exact List.Pairwise.nil

end Store
end Workflow
