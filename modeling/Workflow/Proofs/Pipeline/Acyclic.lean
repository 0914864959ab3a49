import Workflow.Proofs.Lists
import Workflow.Proofs.Pipeline.Descent
import Workflow.Proofs.Pipeline.Sound

/-!
# Pipelines without cycles

If all jumps lead forward, every edge of a pipeline leads from one step to a later one, in the order
in which the names of a block stand before those of the blocks inside it. So there is no cycle as
long as the names tell the steps apart. They do not always: a name may itself contain what stands
between the parts of a qualified name, and then two steps share a node of the graph.
-/
namespace Workflow.ControlGraph
open Relation

theorem mem_bodyEdges {scope : String} {st : Step} {e : Edge} :
    e ∈ bodyEdges scope st ↔ e ∈ blockEdges (qualify scope st.name) st.steps st.steps := by
  cases st
  rfl

/-- An edge of a block starts at one of its steps or is inside it. -/
theorem mem_blockEdges {scope : String} {block rest : List Step} {e : Edge}
    (h : e ∈ blockEdges scope block rest) :
    (∃ i st, rest[i]? = some st ∧ e ∈ stepEdges scope block st rest[i + 1]?) ∨
      ∃ st ∈ rest, e ∈ bodyEdges scope st := by
  induction rest with
  | nil => cases h
  | cons first rest ih =>
    rw [blockEdges, List.mem_append, List.mem_append] at h
    rcases h with (h | h) | h
    · exact .inl ⟨0, first, rfl, by rwa [List.head?_eq_getElem?] at h⟩
    · exact .inr ⟨first, List.mem_cons_self, h⟩
    · rcases ih h with ⟨i, st, hi, he⟩ | ⟨st, hst, he⟩
      · exact .inl ⟨i + 1, st, hi, he⟩
      · exact .inr ⟨st, List.mem_cons_of_mem _ hst, he⟩

/-- Every edge of a block starts at a step of it, or of a block inside it. -/
theorem exists_stepEdges {scope : String} {steps : List Step} {e : Edge}
    (h : e ∈ blockEdges scope steps steps) : ∃ inner block, Inside steps block ∧
      Located scope steps inner block ∧
        ∃ i st, block[i]? = some st ∧ e ∈ stepEdges inner block st block[i + 1]? := by
  induction steps using block_induct generalizing scope with
  | block steps ih =>
    rcases mem_blockEdges h with ⟨i, st, hi, he⟩ | ⟨st, hst, he⟩
    · exact ⟨scope, steps, .here, .refl _ _, i, st, hi, he⟩
    · obtain ⟨inner, block, hinside, hlocated, hstep⟩ := ih st hst (mem_bodyEdges.mp he)
      exact ⟨inner, block, hinside.of_mem hst, hlocated.of_step hst, hstep⟩

theorem jumpTarget?_eq_some {action : Action} {target : String}
    (h : jumpTarget? action = some target) : ∃ condition, action = .jump target condition := by
  cases action <;> cases h
  exact ⟨_, rfl⟩

/-- In a pipeline that only jumps forward, the target of an edge comes after its source. -/
theorem stepEdges_forward {steps block : List Step} (hf : Forward steps) (hb : Inside steps block)
    {scope : String} {i : Nat} {st : Step} (hi : block[i]? = some st) {e : Edge}
    (he : e ∈ stepEdges scope block st block[i + 1]?) :
    [e.source, e.target].Sublist (blockNames scope block) := by
  have later {j : Nat} {t : Step} (hij : i < j) (hj : block[j]? = some t) :
      [qualify scope st.name, qualify scope t.name].Sublist (blockNames scope block) := by
    have hpair := (List.pair_sublist hij hi hj).map fun s : Step => qualify scope s.name
    exact hpair.trans (List.sublist_append_left _ _)
  simp only [stepEdges, List.mem_append, List.mem_map, Option.mem_toList] at he
  rcases he with (⟨t, ht, rfl⟩ | ⟨t, ht, rfl⟩) | ⟨t, ht, rfl⟩
  · exact later (Nat.lt_succ_self i) ht
  · obtain ⟨target, htarget, hhead⟩ := Option.bind_eq_some_iff.mp ht
    obtain ⟨condition, haction⟩ := jumpTarget?_eq_some htarget
    cases hp : position? block target with
    | none =>
      rw [fromName_eq_nil.mpr hp] at hhead
      cases hhead
    | some j =>
      rw [head?_fromName hp] at hhead
      exact later (hf block hb i st target condition j hi haction hp) hhead
  · have hst := List.mem_of_getElem? hi
    have hsource : [qualify scope st.name].Sublist (block.map fun s => qualify scope s.name) :=
      List.singleton_sublist.mpr (List.mem_map_of_mem hst)
    have htarget : [qualify (qualify scope st.name) t.name].Sublist (innerNames scope block) := by
      refine List.singleton_sublist.mpr ((blockNames_sublist scope hst).subset ?_)
      exact List.mem_append_left _ (List.mem_map_of_mem (List.mem_of_head? ht))
    exact hsource.append htarget

/-- In a pipeline that only jumps forward, edges follow the order of the names. -/
theorem blockEdges_forward {scope : String} {steps : List Step} (hf : Forward steps) {e : Edge}
    (he : e ∈ blockEdges scope steps steps) :
    [e.source, e.target].Sublist (blockNames scope steps) := by
  obtain ⟨inner, block, hinside, hlocated, i, st, hi, hstep⟩ := exists_stepEdges he
  exact (stepEdges_forward hf hinside hi hstep).trans hlocated.names

/-- The source of an edge is a node of its block, whatever the jumps. -/
theorem source_mem_blockNames {scope : String} {steps : List Step} {e : Edge}
    (he : e ∈ blockEdges scope steps steps) : e.source ∈ blockNames scope steps := by
  obtain ⟨inner, block, -, hlocated, i, st, hi, hstep⟩ := exists_stepEdges he
  have hsource : e.source = qualify inner st.name := by
    simp only [stepEdges, List.mem_append, List.mem_map, Option.mem_toList] at hstep
    rcases hstep with (⟨t, -, rfl⟩ | ⟨t, -, rfl⟩) | ⟨t, -, rfl⟩ <;> rfl
  exact hsource ▸ hlocated.names.subset (mem_blockNames inner hi)

/-- A node is named inside a scope. -/
def Scoped (scope node : String) : Prop := (scope ++ separator).toList <+: node.toList

instance (scope node : String) : Decidable (Scoped scope node) :=
  inferInstanceAs (Decidable (_ <+: _))

theorem Scoped.outer {scope name node : String} (h : Scoped (qualify scope name) node) :
    Scoped scope node := by
  refine List.IsPrefix.trans ⟨(name ++ separator).toList, ?_⟩ h
  simp [qualify, List.append_assoc]

theorem innerNames_eq (scope : String) (block : List Step) :
    innerNames scope block =
      block.flatMap fun st => blockNames (qualify scope st.name) st.steps := by
  induction block with
  | nil => rfl
  | cons st block ih =>
    rw [innerNames, ih, List.flatMap_cons]
    cases st
    rfl

theorem scoped_of_mem {scope : String} {steps : List Step} {node : String}
    (h : node ∈ blockNames scope steps) : Scoped scope node := by
  induction steps using block_induct generalizing scope with
  | block steps ih =>
    rw [blockNames, innerNames_eq, List.mem_append, List.mem_map, List.mem_flatMap] at h
    rcases h with ⟨st, -, rfl⟩ | ⟨st, hst, h⟩
    · exact ⟨st.name.toList, by simp [qualify]⟩
    · exact (ih st hst h).outer

/-- The nodes of a pipeline are those of its steps, each of a single step. -/
structure Distinguished (d : PipelineDocument) (pipeline : Pipeline) : Prop where
  own : (blockNames pipeline.name pipeline.steps).Nodup
  others : ∀ other ∈ d.pipelines, other ≠ pipeline →
    ∀ node ∈ blockNames other.name other.steps, ¬Scoped pipeline.name node

theorem idxOf_lt {l : List String} (hl : l.Nodup) {x y : String} (h : [x, y].Sublist l) :
    l.idxOf x < l.idxOf y := by
  have hpairs : l.Pairwise fun a b => l.idxOf a < l.idxOf b := by
    rw [List.pairwise_iff_getElem]
    intro i j hi hj hij
    rwa [hl.idxOf_getElem i hi, hl.idxOf_getElem j hj]
  exact List.pairwise_iff_forall_sublist.mp hpairs h

/-- In a pipeline that only jumps forward, and whose steps have nodes of their own, every edge leads
to a later node of the pipeline. -/
theorem Distinguished.adjacent_lt {d : PipelineDocument} {pipeline : Pipeline}
    (h : Distinguished d pipeline) (hf : Forward pipeline.steps) {x y : String}
    (hx : Scoped pipeline.name x) (hxy : (ofDocument d).Adjacent x y) :
    Scoped pipeline.name y ∧
      (blockNames pipeline.name pipeline.steps).idxOf x <
        (blockNames pipeline.name pipeline.steps).idxOf y := by
  obtain ⟨-, hedge⟩ := mem_successors.mp hxy
  obtain ⟨other, hother, he⟩ := List.mem_flatMap.mp hedge
  by_cases heq : other = pipeline
  · subst heq
    have hpair := blockEdges_forward hf he
    exact ⟨scoped_of_mem (hpair.subset (by simp)), idxOf_lt h.own hpair⟩
  · exact absurd hx (h.others other hother heq x (source_mem_blockNames he))

/-- No cycle is found in a pipeline that only jumps forward, if its steps have nodes of their
own. -/
theorem Distinguished.cyclesIn_eq_nil {d : PipelineDocument} {pipeline : Pipeline}
    (h : Distinguished d pipeline) (hf : Forward pipeline.steps) :
    (ofDocument d).cyclesIn pipeline.name = [] := by
  rw [cyclesIn, List.filter_eq_nil_iff]
  intro c hc hhead
  obtain ⟨x, hx, hreturn⟩ := cycles_return _ c hc
  have hscoped : Scoped pipeline.name x := by
    rw [hx] at hhead
    exact List.isPrefixOf_iff_prefix.mp hhead
  have forward {y : String} (hy : TransGen (ofDocument d).Adjacent x y) :
      Scoped pipeline.name y ∧ (blockNames pipeline.name pipeline.steps).idxOf x <
        (blockNames pipeline.name pipeline.steps).idxOf y := by
    induction hy with
    | single he => exact h.adjacent_lt hf hscoped he
    | tail _ he ih =>
      obtain ⟨hy, hlt⟩ := h.adjacent_lt hf ih.1 he
      exact ⟨hy, Nat.lt_trans ih.2 hlt⟩
  exact absurd (forward hreturn).2 (Nat.lt_irrefl _)

/-- A name has nothing of what stands between the parts of a qualified name. -/
def Plain (name : String) : Prop := ':' ∉ name.toList

theorem Plain.not_scoped {scope name : String} (h : Plain name) : ¬Scoped scope name := by
  rintro ⟨rest, hrest⟩
  exact h (hrest ▸ by simp [separator])

theorem Plain.takeWhile_eq {name node : String} (h : Plain name) (hn : Scoped name node) :
    node.toList.takeWhile (· != ':') = name.toList := by
  obtain ⟨rest, hrest⟩ := hn
  rw [← hrest, String.toList_append, List.append_assoc, List.takeWhile_append_of_pos]
  · simp [separator]
  · intro c hc
    exact bne_iff_ne.mpr fun heq => h (heq ▸ hc)

theorem Plain.eq_of_scoped {a b node : String} (ha : Plain a) (hb : Plain b)
    (hna : Scoped a node) (hnb : Scoped b node) : a = b :=
  String.toList_inj.mp ((ha.takeWhile_eq hna).symm.trans (hb.takeWhile_eq hnb))

theorem qualify_injective (scope : String) : Function.Injective (qualify scope) := by
  intro a b h
  have hlist := congrArg String.toList h
  simpa [qualify, String.toList_inj] using hlist

theorem Scoped.exists_rest {scope name node : String} (h : Scoped (qualify scope name) node) :
    ∃ rest, qualify scope rest = node ∧ Scoped name rest := by
  obtain ⟨rest, hrest⟩ := h
  refine ⟨name ++ separator ++ String.ofList rest, ?_, rest, by simp⟩
  refine String.toList_inj.mp (Eq.trans ?_ hrest)
  simp [qualify, List.append_assoc]

/-- In a block of distinct plain names at every depth, every step has a node of its own. -/
theorem blockNames_nodup {scope : String} {steps : List Step}
    (hdistinct : ∀ block, Inside steps block → (block.map Step.name).Nodup)
    (hplain : ∀ block, Inside steps block → ∀ st ∈ block, Plain st.name) :
    (blockNames scope steps).Nodup := by
  induction steps using block_induct generalizing scope with
  | block steps ih =>
    rw [blockNames, innerNames_eq, List.nodup_append']
    have inside {st : Step} (hst : st ∈ steps) {node : String}
        (hn : node ∈ blockNames (qualify scope st.name) st.steps) :
        ∃ rest, qualify scope rest = node ∧ Scoped st.name rest :=
      (scoped_of_mem hn).exists_rest
    refine ⟨?_, List.nodup_flatMap.mpr ⟨fun st hst => ?_, ?_⟩, ?_⟩
    · have hmap := (hdistinct steps .here).map (qualify_injective scope)
      rwa [List.map_map] at hmap
    · exact ih st hst (fun block hb => hdistinct block (hb.of_mem hst))
        fun block hb => hplain block (hb.of_mem hst)
    · have hnames : steps.Pairwise fun s t => s.name ≠ t.name :=
        List.pairwise_map.mp (hdistinct steps .here)
      refine (List.Pairwise.and_mem.mp hnames).imp ?_
      rintro s t ⟨hs, ht, hne⟩ node hns hnt
      obtain ⟨a, rfl, ha⟩ := inside hs hns
      obtain ⟨b, hb, hb'⟩ := inside ht hnt
      cases qualify_injective scope hb
      exact hne ((hplain _ .here s hs).eq_of_scoped (hplain _ .here t ht) ha hb')
    · intro node hn hinner
      obtain ⟨s, hs, rfl⟩ := List.mem_map.mp hn
      obtain ⟨t, ht, hnt⟩ := List.mem_flatMap.mp hinner
      obtain ⟨rest, hrest, hscoped⟩ := inside ht hnt
      cases qualify_injective scope hrest
      exact (hplain _ .here s hs).not_scoped hscoped

/-- In a sound document of plain names, every pipeline has nodes of its own. -/
theorem Distinguished.of_plain {d : PipelineDocument} (hd : d.Sound) {pipeline : Pipeline}
    (hp : pipeline ∈ d.pipelines) (hnames : ∀ other ∈ d.pipelines, Plain other.name)
    (hplain : ∀ block, Inside pipeline.steps block → ∀ st ∈ block, Plain st.name) :
    Distinguished d pipeline where
  own := blockNames_nodup (fun block hb => (hd.blocks pipeline hp block hb).distinct) hplain
  others other hother hne node hnode hscoped := by
    have heq :=
      (hnames other hother).eq_of_scoped (hnames pipeline hp) (scoped_of_mem hnode) hscoped
    exact hne (List.inj_on_of_nodup_map hd.distinct hother hp heq)

end Workflow.ControlGraph
