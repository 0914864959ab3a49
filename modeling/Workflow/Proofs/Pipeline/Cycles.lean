import Workflow.Proofs.Pipeline.Acyclic

/-!
# The cycles of a control graph

Every edge of the graph of a document is between two of its nodes. So the successors of a node are
what its edges lead to, and the search over all nodes finds a cycle in every set of nodes that lead
to each other and back.
-/
namespace Workflow.ControlGraph
open Relation

theorem mem_of_head?_fromName {block : List Step} {target : String} {t : Step}
    (h : (fromName target block).head? = some t) : t ∈ block :=
  (List.dropWhile_suffix _).subset (List.mem_of_head? h)

/-- The target of an edge is a node of its block or of one inside it. -/
theorem target_mem_blockNames {scope : String} {steps : List Step} {e : Edge}
    (he : e ∈ blockEdges scope steps steps) : e.target ∈ blockNames scope steps := by
  obtain ⟨inner, block, -, hlocated, i, st, hi, hstep⟩ := exists_stepEdges he
  apply hlocated.names.subset
  simp only [stepEdges, List.mem_append, List.mem_map, Option.mem_toList] at hstep
  rcases hstep with (⟨t, ht, rfl⟩ | ⟨t, ht, rfl⟩) | ⟨t, ht, rfl⟩
  · exact mem_blockNames inner ht
  · obtain ⟨target, -, hhead⟩ := Option.bind_eq_some_iff.mp ht
    exact List.mem_append_left _ (List.mem_map_of_mem (mem_of_head?_fromName hhead))
  · refine List.mem_append_right _ ((blockNames_sublist inner (List.mem_of_getElem? hi)).subset ?_)
    exact List.mem_append_left _ (List.mem_map_of_mem (List.mem_of_head? ht))

def Leads (g : ControlGraph) (x y : String) : Prop := (⟨x, y⟩ : Edge) ∈ g.edges

/-- The edges of the graph of a document are between its nodes. -/
theorem Leads.nodes {d : PipelineDocument} {x y : String} (h : (ofDocument d).Leads x y) :
    x ∈ (ofDocument d).nodes ∧ y ∈ (ofDocument d).nodes := by
  obtain ⟨pipeline, hp, he⟩ := List.mem_flatMap.mp h
  exact ⟨ofDocument_nodes hp (source_mem_blockNames he),
    ofDocument_nodes hp (target_mem_blockNames he)⟩

theorem adjacent_eq_leads (d : PipelineDocument) :
    (ofDocument d).Adjacent = (ofDocument d).Leads := by
  funext x y
  exact propext (mem_successors.trans ⟨fun h => h.2, fun h => ⟨h.nodes.2, h⟩⟩)

def Mutual (g : ControlGraph) (x y : String) : Prop :=
  ReflTransGen g.Adjacent x y ∧ ReflTransGen g.Adjacent y x

/-- The nodes that lead to a node that leads back to itself, and that it leads to, are connected. -/
theorem connected_mutual {g : ControlGraph} {x : String} (h : TransGen g.Adjacent x x) :
    Connected g (g.Mutual x) where
  path := by
    intro a b ha hb
    have hab : ReflTransGen g.Adjacent a b := ha.2.trans hb.1
    -- Every node between two nodes of the set is in the set.
    induction hab with
    | refl => exact .refl
    | @tail b c hab hbc ih =>
      exact (ih ⟨ha.1.trans hab, (ReflTransGen.single hbc).trans hb.2⟩).tail ⟨hb, hbc⟩
  entered := by
    intro y hy
    have hround : TransGen g.Adjacent y y := (TransGen.trans_right hy.2 h).trans_left hy.1
    obtain ⟨z, hyz, hzy⟩ := TransGen.tail'_iff.mp hround
    exact ⟨z, ⟨hy.1.trans hyz, (ReflTransGen.single hzy).trans hy.2⟩, hzy⟩

/-- A node that leads back to itself leads to the nodes of a cycle that is found, and they lead to
it. -/
theorem exists_cycle_of_returns {g : ControlGraph} {x : String} (hx : x ∈ g.nodes)
    (h : TransGen g.Adjacent x x) : ∃ c ∈ g.cycles, ∀ y ∈ c, g.Mutual x y := by
  have hself : g.Mutual x x := ⟨.refl, .refl⟩
  obtain ⟨c, hc, start, hstart, hhead⟩ := (connected_mutual h).exists_cycle hself hx
  obtain ⟨first, hfirst, -, hall⟩ := (cycles_isCycle hc).exists_start
  obtain rfl : first = start := Option.some.inj (hfirst.symm.trans hhead)
  exact ⟨c, hc, fun y hy => ⟨hstart.1.trans (hall y hy).1, (hall y hy).2.trans hstart.2⟩⟩

/-- **The cycles of a control graph.** The search for them ends, in one way only. What it reports
are cycles of edges; a node that leads back to itself leads to all nodes of one of them, and they
lead to it; and so nothing is reported if and only if no node leads back to itself. -/
theorem cycles_found (d : PipelineDocument) :
    (∃ t, (∀ u, Descends (ofDocument d) [] (ofDocument d).nodes ⟨[], []⟩ u ↔ u = t) ∧
      t.cycles = (ofDocument d).cycles) ∧
    (∀ c ∈ (ofDocument d).cycles, IsCycle (ofDocument d).Leads c) ∧
    (∀ x, TransGen (ofDocument d).Leads x x → ∃ c ∈ (ofDocument d).cycles, ∀ y ∈ c,
      ReflTransGen (ofDocument d).Leads x y ∧ ReflTransGen (ofDocument d).Leads y x) ∧
    ((ofDocument d).cycles = [] ↔ ∀ x, ¬TransGen (ofDocument d).Leads x x) := by
  obtain ⟨t, ht, hcycles⟩ := cycles_descends (ofDocument d)
  rw [← adjacent_eq_leads d]
  have hfound : ∀ x, TransGen (ofDocument d).Adjacent x x →
      ∃ c ∈ (ofDocument d).cycles, ∀ y ∈ c, (ofDocument d).Mutual x y := by
    intro x hx
    obtain ⟨y, hxy, -⟩ := TransGen.head'_iff.mp hx
    rw [adjacent_eq_leads] at hxy
    exact exists_cycle_of_returns hxy.nodes.1 hx
  refine ⟨⟨t, fun u => ⟨ht.unique, fun hu => hu ▸ ht⟩, hcycles⟩, fun c => cycles_isCycle, hfound,
    fun hnone x hx => ?_, fun hnone => List.eq_nil_iff_forall_not_mem.mpr fun c hc => ?_⟩
  · obtain ⟨c, hc, -⟩ := hfound x hx
    rw [hnone] at hc
    exact List.not_mem_nil hc
  · obtain ⟨x, -, hx⟩ := cycles_return _ c hc
    exact hnone x hx

end Workflow.ControlGraph
