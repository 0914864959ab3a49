import Workflow.Proofs.Pipeline.Blocks
import Workflow.Proofs.Pipeline.Search
import Mathlib.Data.List.TakeWhile
import Mathlib.Data.Nat.Init
import Mathlib.Order.Nat

/-!
# Cycles of a control graph

The control graph has an edge from each step to the next one and from each jump to its target, at
every depth. A jump to the same or an earlier step closes a ring of these edges, all inside the name
of the pipeline. The search finds a cycle that starts in the ring, so that a pipeline without cycles
only jumps forward.
-/
namespace Workflow.ControlGraph
open Relation

theorem stepEdges_subset (scope : String) (block : List Step) {rest : List Step} {k : Nat}
    {st : Step} (h : rest[k]? = some st) :
    stepEdges scope block st rest[k + 1]? ⊆ blockEdges scope block rest := by
  induction rest generalizing k with
  | nil => cases h
  | cons first rest ih =>
    rw [blockEdges]
    cases k with
    | zero =>
      cases h
      rw [List.head?_eq_getElem?]
      exact List.Subset.trans (List.subset_append_left _ _) (List.subset_append_left _ _)
    | succ k => exact List.Subset.trans (ih h) (List.subset_append_right _ _)

theorem edge_next {scope : String} {block : List Step} {k : Nat} {a b : Step}
    (ha : block[k]? = some a) (hb : block[k + 1]? = some b) :
    ⟨qualify scope a.name, qualify scope b.name⟩ ∈ blockEdges scope block block := by
  refine stepEdges_subset scope block ha ?_
  rw [hb]
  simp [stepEdges]

theorem head?_fromName {block : List Step} {target : String} {j : Nat}
    (h : position? block target = some j) : (fromName target block).head? = block[j]? := by
  induction block generalizing j with
  | nil => cases h
  | cons first block ih =>
    rw [position?, List.findIdx?_cons] at h
    by_cases hf : first.name = target
    · rw [if_pos (by simpa using hf)] at h
      cases h
      rw [fromName, List.dropWhile_cons_of_neg (by simpa using hf)]
      rfl
    · rw [if_neg (by simpa using hf), Option.map_eq_some_iff] at h
      obtain ⟨k, hk, rfl⟩ := h
      rw [fromName, List.dropWhile_cons_of_pos (by simpa using hf)]
      exact ih hk

theorem fromName_eq_nil {block : List Step} {target : String} :
    fromName target block = [] ↔ position? block target = none := by
  rw [fromName, List.dropWhile_eq_nil_iff, position?, List.findIdx?_eq_none_iff]
  simp

theorem edge_jump {scope : String} {block : List Step} {i j : Nat} {a b : Step} {target : String}
    {condition : Option String} (ha : block[i]? = some a) (hj : a.action = .jump target condition)
    (hp : position? block target = some j) (hb : block[j]? = some b) :
    ⟨qualify scope a.name, qualify scope b.name⟩ ∈ blockEdges scope block block := by
  refine stepEdges_subset scope block ha ?_
  have ht : (jumpTarget? a.action).bind (fun target => (fromName target block).head?) = some b := by
    rw [hj]
    exact (head?_fromName hp).trans hb
  simp [stepEdges, ht]

theorem edge_body {scope : String} {block : List Step} {i : Nat} {a b : Step}
    (ha : block[i]? = some a) (hb : a.steps[0]? = some b) :
    ⟨qualify scope a.name, qualify (qualify scope a.name) b.name⟩ ∈
      blockEdges scope block block := by
  refine stepEdges_subset scope block ha ?_
  simp [stepEdges, List.head?_eq_getElem?, hb]

theorem bodyEdges_subset (scope : String) (block : List Step) {rest : List Step} {st : Step}
    (h : st ∈ rest) :
    blockEdges (qualify scope st.name) st.steps st.steps ⊆ blockEdges scope block rest := by
  induction rest with
  | nil => cases h
  | cons first rest ih =>
    rw [blockEdges]
    rcases List.mem_cons.mp h with rfl | h
    · refine List.Subset.trans ?_ (List.subset_append_left _ _)
      refine List.Subset.trans ?_ (List.subset_append_right _ _)
      cases st
      exact List.Subset.refl _
    · exact List.Subset.trans (ih h) (List.subset_append_right _ _)

theorem bodyNames_sublist (scope : String) {rest : List Step} {st : Step} (h : st ∈ rest) :
    (bodyNames scope st).Sublist (innerNames scope rest) := by
  induction rest with
  | nil => cases h
  | cons first rest ih =>
    rw [innerNames]
    rcases List.mem_cons.mp h with rfl | h
    · exact List.sublist_append_left _ _
    · exact (ih h).trans (List.sublist_append_right _ _)

theorem bodyErrors_subset (scope : String) (block : List Step) {rest : List Step} {st : Step}
    (h : st ∈ rest) : bodyErrors scope st ⊆ blockErrors scope block rest := by
  induction rest with
  | nil => cases h
  | cons first rest ih =>
    rw [blockErrors]
    rcases List.mem_cons.mp h with rfl | h
    · exact List.Subset.trans (List.subset_append_right _ _) (List.subset_append_left _ _)
    · exact List.Subset.trans (ih h) (List.subset_append_right _ _)

theorem jumpErrors_subset (scope : String) (block : List Step) {rest : List Step} {st : Step}
    (h : st ∈ rest) : jumpErrors scope block st ⊆ blockErrors scope block rest := by
  induction rest with
  | nil => cases h
  | cons first rest ih =>
    rw [blockErrors]
    rcases List.mem_cons.mp h with rfl | h
    · exact List.Subset.trans (List.subset_append_left _ _) (List.subset_append_left _ _)
    · exact List.Subset.trans (ih h) (List.subset_append_right _ _)

def blockNames (scope : String) (block : List Step) : List String :=
  block.map (fun s => qualify scope s.name) ++ innerNames scope block

theorem mem_blockNames (scope : String) {block : List Step} {i : Nat} {st : Step}
    (h : block[i]? = some st) : qualify scope st.name ∈ blockNames scope block :=
  List.mem_append_left _ (List.mem_map_of_mem (List.mem_of_getElem? h))

theorem blockNames_sublist (scope : String) {block : List Step} {st : Step} (h : st ∈ block) :
    (blockNames (qualify scope st.name) st.steps).Sublist (innerNames scope block) := by
  refine List.Sublist.trans ?_ (bodyNames_sublist scope h)
  cases st
  exact List.Sublist.refl _

def blockFlaws (scope : String) (block : List Step) : List GraphError :=
  duplicates scope [] block ++ blockErrors scope block block

theorem blockFlaws_subset (scope : String) {block : List Step} {st : Step} (h : st ∈ block) :
    blockFlaws (qualify scope st.name) st.steps ⊆ blockFlaws scope block := by
  refine List.Subset.trans ?_ (List.subset_append_right _ _)
  refine List.Subset.trans ?_ (bodyErrors_subset scope block h)
  cases st
  exact List.Subset.refl _

/-- A block that is inside another has a scope of its own there. -/
structure Located (scope : String) (steps : List Step) (inner : String) (block : List Step) :
    Prop where
  edges : blockEdges inner block block ⊆ blockEdges scope steps steps
  names : (blockNames inner block).Sublist (blockNames scope steps)
  flaws : blockFlaws inner block ⊆ blockFlaws scope steps
  named : ∀ name, (scope ++ separator).toList <+: (qualify inner name).toList

namespace Located

theorem refl (scope : String) (steps : List Step) : Located scope steps scope steps where
  edges := List.Subset.refl _
  names := List.Sublist.refl _
  flaws := List.Subset.refl _
  named name := ⟨name.toList, by simp [qualify]⟩

theorem of_step {scope inner : String} {steps block : List Step} {st : Step} (hst : st ∈ steps)
    (h : Located (qualify scope st.name) st.steps inner block) :
    Located scope steps inner block where
  edges := List.Subset.trans h.edges (bodyEdges_subset scope steps hst)
  names := (h.names.trans (blockNames_sublist scope hst)).trans (List.sublist_append_right _ _)
  flaws := List.Subset.trans h.flaws (blockFlaws_subset scope hst)
  named name := by
    refine List.IsPrefix.trans ?_ (h.named name)
    simp [qualify, List.append_assoc]

theorem of_blockAt? {scope inner : String} {steps block : List Step} {way : List Nat}
    (h : blockAt? scope steps way = some (inner, block)) : Located scope steps inner block := by
  induction way generalizing scope steps with
  | nil =>
    cases h
    exact .refl _ _
  | cons k way ih =>
    obtain ⟨st, hst, h⟩ := Option.bind_eq_some_iff.mp h
    exact (ih h).of_step (List.mem_of_getElem? hst)

theorem of_inside (scope : String) {steps block : List Step} (h : Inside steps block) :
    ∃ inner, Located scope steps inner block := by
  obtain ⟨way, inner, hway⟩ := h.exists_blockAt? scope
  exact ⟨inner, .of_blockAt? hway⟩

end Located

/-- The nodes of a ring of edges are connected. -/
theorem connected_ring {g : ControlGraph} {n : Nat → String} {j i : Nat} (hji : j ≤ i)
    (hstep : ∀ k, j ≤ k → k < i → n (k + 1) ∈ g.successors (n k))
    (hback : n j ∈ g.successors (n i)) : Connected g (fun x => ∃ k, j ≤ k ∧ k ≤ i ∧ x = n k) := by
  have up {a b : Nat} (ha : j ≤ a) (hab : a ≤ b) (hb : b ≤ i) :
      ReflTransGen (fun x y => (∃ k, j ≤ k ∧ k ≤ i ∧ y = n k) ∧ y ∈ g.successors x)
        (n a) (n b) := by
    induction b, hab using Nat.le_induction with
    | base => exact .refl
    | succ b hab ih =>
      exact .tail (ih (by omega)) ⟨⟨b + 1, by omega, hb, rfl⟩, hstep b (by omega) (by omega)⟩
  constructor
  · rintro _ _ ⟨a, ha, hai, rfl⟩ ⟨b, hb, hbi, rfl⟩
    exact ((up ha hai le_rfl).tail ⟨⟨j, le_rfl, hji, rfl⟩, hback⟩).trans (up le_rfl hb hbi)
  · rintro _ ⟨a, ha, hai, rfl⟩
    rcases Nat.eq_or_lt_of_le ha with rfl | hja
    · exact ⟨n i, ⟨i, hji, le_rfl, rfl⟩, hback⟩
    · obtain ⟨k, rfl⟩ : ∃ k, a = k + 1 := ⟨a - 1, by omega⟩
      exact ⟨n k, ⟨k, by omega, by omega, rfl⟩, hstep k (by omega) (by omega)⟩

theorem ofDocument_nodes {d : PipelineDocument} {pipeline : Pipeline} (h : pipeline ∈ d.pipelines) :
    blockNames pipeline.name pipeline.steps ⊆ (ofDocument d).nodes := by
  intro x hx
  refine List.mem_eraseDups.mpr (List.mem_flatMap.mpr ⟨pipeline, h, ?_⟩)
  exact hx

theorem ofDocument_edges {d : PipelineDocument} {pipeline : Pipeline} (h : pipeline ∈ d.pipelines) :
    blockEdges pipeline.name pipeline.steps pipeline.steps ⊆ (ofDocument d).edges :=
  fun _ he => List.mem_flatMap.mpr ⟨pipeline, h, he⟩

/-- An edge of a block inside a pipeline is one of the graph. -/
theorem Located.successor {d : PipelineDocument} {pipeline : Pipeline} {inner : String}
    {block : List Step} (hp : pipeline ∈ d.pipelines)
    (h : Located pipeline.name pipeline.steps inner block) {x y : String}
    (he : ⟨x, y⟩ ∈ blockEdges inner block block) (hy : y ∈ blockNames inner block) :
    y ∈ (ofDocument d).successors x :=
  mem_successors.mpr ⟨ofDocument_nodes hp (h.names.subset hy), ofDocument_edges hp (h.edges he)⟩

/-- A pipeline in which no cycle is found only jumps forward. -/
theorem forward_of_cyclesIn {d : PipelineDocument} {pipeline : Pipeline}
    (hp : pipeline ∈ d.pipelines) (hc : (ofDocument d).cyclesIn pipeline.name = []) :
    Forward pipeline.steps := by
  intro block hblock i st target condition j hi haction hj
  by_contra hij
  obtain ⟨inner, hlocated⟩ := Located.of_inside pipeline.name hblock
  let n (k : Nat) : String := qualify inner (block.getD k default).name
  have get {k : Nat} (hk : k ≤ i) : ∃ a, block[k]? = some a ∧ n k = qualify inner a.name := by
    have hlt : k < block.length := Nat.lt_of_le_of_lt hk (List.getElem?_eq_some_iff.mp hi).1
    refine ⟨block[k], List.getElem?_eq_getElem hlt, ?_⟩
    simp only [n, List.getD_eq_getElem?_getD, List.getElem?_eq_getElem hlt, Option.getD_some]
  have name {k : Nat} (hk : k ≤ i) : n k ∈ blockNames inner block := by
    obtain ⟨a, ha, hn⟩ := get hk
    exact hn ▸ mem_blockNames inner ha
  have edge {a b : Nat} (hb : b ≤ i) (he : ⟨n a, n b⟩ ∈ blockEdges inner block block) :
      n b ∈ (ofDocument d).successors (n a) :=
    hlocated.successor hp he (name hb)
  have hring : Connected (ofDocument d) (fun x => ∃ k, j ≤ k ∧ k ≤ i ∧ x = n k) := by
    refine connected_ring (by omega) (fun k _ hk => edge hk ?_) (edge (by omega) ?_)
    · obtain ⟨a, ha, hna⟩ := get (Nat.le_of_lt hk)
      obtain ⟨b, hb, hnb⟩ := get (Nat.succ_le_of_lt hk)
      rw [hna, hnb]
      exact edge_next ha hb
    · obtain ⟨a, ha, hna⟩ := get le_rfl
      obtain ⟨b, hb, hnb⟩ := get (k := j) (by omega)
      cases hi.symm.trans ha
      rw [hna, hnb]
      exact edge_jump hi haction hj hb
  obtain ⟨c, hcycle, x, ⟨k, -, hk, rfl⟩, hhead⟩ :=
    hring.exists_cycle ⟨i, by omega, le_rfl, rfl⟩
      (ofDocument_nodes hp (hlocated.names.subset (name le_rfl)))
  refine List.not_mem_nil (a := c) (hc ▸ List.mem_filter.mpr ⟨hcycle, ?_⟩)
  rw [hhead]
  exact List.isPrefixOf_iff_prefix.mpr (hlocated.named _)

end Workflow.ControlGraph
