import Workflow.Pipeline.Graph
import Mathlib.Data.List.Nodup
import Mathlib.Data.List.Perm.Subperm
import Mathlib.Logic.Relation

/-!
# The search for cycles

A depth-first search leaves every node that it meets with all its successors met, and reports a
cycle for every successor that is on the way to the node. So if every node of a set leads to every
other inside the set, and is led to, then the node of the set that is met first is met again from
inside the set: a cycle that starts in the set is reported.
-/
namespace Workflow.ControlGraph
open Relation

/-- What the search does with a successor of the last node of a way. -/
def follow (g : ControlGraph) (fuel : Nat) (way : List String) (s : Search) (next : String) :
    Search :=
  if way.contains next then
    { s with cycles := s.cycles ++ [way.dropWhile (· != next) ++ [next]] }
  else if s.visited.contains next then s
  else g.visit fuel way next s

theorem visit_succ (g : ControlGraph) (fuel : Nat) (way : List String) (node : String)
    (s : Search) :
    g.visit (fuel + 1) way node s = (g.successors node).foldl (g.follow fuel (way ++ [node]))
      { s with visited := node :: s.visited } := rfl

theorem cycles_eq (g : ControlGraph) :
    g.cycles = (g.nodes.foldl (g.follow g.nodes.length []) ⟨[], []⟩).cycles := rfl

/-- A way from one of its nodes on starts with that node. -/
theorem dropWhile_eq_cons {way : List String} {node : String} (h : node ∈ way) :
    ∃ inner, way.dropWhile (· != node) = node :: inner := by
  induction way with
  | nil => cases h
  | cons first way ih =>
    by_cases hf : first = node
    · exact ⟨way, by simp [hf]⟩
    · have hm : node ∈ way := by
        rcases List.mem_cons.mp h with rfl | hm
        · exact absurd rfl hf
        · exact hm
      rw [List.dropWhile_cons_of_pos (by simpa using hf)]
      exact ih hm

theorem head?_cycle {way : List String} {node : String} (h : node ∈ way) :
    (way.dropWhile (· != node) ++ [node]).head? = some node := by
  obtain ⟨inner, hinner⟩ := dropWhile_eq_cons h
  rw [hinner]
  rfl

def Adjacent (g : ControlGraph) (x y : String) : Prop := y ∈ g.successors x

theorem mem_successors {g : ControlGraph} {x y : String} :
    y ∈ g.successors x ↔ y ∈ g.nodes ∧ ⟨x, y⟩ ∈ g.edges := by
  simp only [successors, List.mem_filter, List.contains_iff_mem, List.mem_map, beq_iff_eq]
  constructor
  · rintro ⟨hn, ⟨source, target⟩, ⟨he, rfl⟩, rfl⟩
    exact ⟨hn, he⟩
  · rintro ⟨hn, he⟩
    exact ⟨hn, _, ⟨he, rfl⟩, rfl⟩

/-- Every node of a set leads to every other inside the set, and has one that leads to it. -/
structure Connected (g : ControlGraph) (S : String → Prop) : Prop where
  path : ∀ x y, S x → S y → ReflTransGen (fun a b => S b ∧ b ∈ g.successors a) x y
  entered : ∀ x, S x → ∃ y, S y ∧ x ∈ g.successors y

/-- What a part of the search achieves below the end of a way, also for a given set of nodes. -/
structure Explores (g : ControlGraph) (S : String → Prop) (way : List String) (s t : Search) :
    Prop where
  visited : s.visited ⊆ t.visited
  cycles : s.cycles ⊆ t.cycles
  closed : ∀ x ∈ t.visited, x ∉ s.visited → ∀ y ∈ g.successors x, y ∈ t.visited
  back : ∀ x ∈ t.visited, x ∉ s.visited → ∀ y ∈ g.successors x, y ∈ way →
    ∃ c ∈ t.cycles, c.head? = some y
  finds : (∀ x, S x → x ∉ s.visited) → (∃ x, S x ∧ x ∈ t.visited) →
    ∃ c ∈ t.cycles, ∃ x, S x ∧ c.head? = some x

namespace Explores
variable {g : ControlGraph} {S : String → Prop} {way : List String} {s t u : Search}

/-- A part of the search that meets no node. -/
theorem still (hv : t.visited = s.visited) (hc : s.cycles ⊆ t.cycles) : Explores g S way s t where
  visited := hv ▸ List.Subset.refl _
  cycles := hc
  closed _ hx hn := absurd (hv ▸ hx) hn
  back _ hx hn := absurd (hv ▸ hx) hn
  finds hs ht := by
    obtain ⟨x, hx, hm⟩ := ht
    exact absurd (hv ▸ hm) (hs x hx)

theorem trans (h : Explores g S way s t) (k : Explores g S way t u) : Explores g S way s u where
  visited := List.Subset.trans h.visited k.visited
  cycles := List.Subset.trans h.cycles k.cycles
  closed x hx hn y hy := by
    by_cases ht : x ∈ t.visited
    · exact k.visited (h.closed x ht hn y hy)
    · exact k.closed x hx ht y hy
  back x hx hn y hy hw := by
    by_cases ht : x ∈ t.visited
    · obtain ⟨c, hc, hhead⟩ := h.back x ht hn y hy hw
      exact ⟨c, k.cycles hc, hhead⟩
    · exact k.back x hx ht y hy hw
  finds hs hu := by
    by_cases ht : ∃ x, S x ∧ x ∈ t.visited
    · obtain ⟨c, hc, hhead⟩ := h.finds hs ht
      exact ⟨c, k.cycles hc, hhead⟩
    · exact k.finds (fun x hx hm => ht ⟨x, hx, hm⟩) hu

theorem shorten {longer : List String} (h : Explores g S longer s t) (hw : way ⊆ longer) :
    Explores g S way s t :=
  { h with back := fun x hx hn y hy hm => h.back x hx hn y hy (hw hm) }

end Explores

/-- A way that the search can be on, with fuel left for every node that can still come. -/
structure OnWay (g : ControlGraph) (fuel : Nat) (way : List String) (s : Search) : Prop where
  visited : way ⊆ s.visited
  nodes : way ⊆ g.nodes
  nodup : way.Nodup
  fuel : g.nodes.length ≤ fuel + way.length

namespace OnWay
variable {g : ControlGraph} {S : String → Prop} {fuel : Nat} {way : List String} {node : String}
  {s t : Search}

theorem mono (h : OnWay g fuel way s) (hv : s.visited ⊆ t.visited) : OnWay g fuel way t :=
  { h with visited := List.Subset.trans h.visited hv }

theorem nodup_append (h : OnWay g fuel way s) (hn : node ∉ s.visited) : (way ++ [node]).Nodup := by
  rw [← List.concat_eq_append]
  exact h.nodup.concat fun hm => hn (h.visited hm)

theorem append_subset (h : OnWay g fuel way s) (hm : node ∈ g.nodes) :
    way ++ [node] ⊆ g.nodes :=
  List.append_subset.mpr ⟨h.nodes, by simpa using hm⟩

/-- There is fuel for one more node. -/
theorem fuel_pos (h : OnWay g fuel way s) (hm : node ∈ g.nodes) (hn : node ∉ s.visited) :
    0 < fuel := by
  have hle := ((h.nodup_append hn).subperm (h.append_subset hm)).length_le
  have hfuel := h.fuel
  rw [List.length_append, List.length_singleton] at hle
  omega

theorem extend (h : OnWay g (fuel + 1) way s) (hm : node ∈ g.nodes) (hn : node ∉ s.visited) :
    OnWay g fuel (way ++ [node]) { s with visited := node :: s.visited } where
  visited := List.append_subset.mpr
    ⟨List.Subset.trans h.visited (List.subset_cons_self _ _), by simp⟩
  nodes := h.append_subset hm
  nodup := h.nodup_append hn
  fuel := by
    have := h.fuel
    rw [List.length_append, List.length_singleton]
    omega

end OnWay

section
variable {g : ControlGraph} {S : String → Prop} {fuel : Nat} {way : List String} {s : Search}

/-- Visiting explores what is below a node. -/
abbrev Visits (g : ControlGraph) (S : String → Prop) (fuel : Nat) : Prop :=
  ∀ way node s, OnWay g fuel way s → node ∈ g.nodes → node ∉ s.visited →
    Explores g S (way ++ [node]) s (g.visit fuel way node s) ∧
      node ∈ (g.visit fuel way node s).visited

theorem follow_explores (hv : Visits g S fuel) (h : OnWay g fuel way s) {next : String}
    (hn : next ∈ g.nodes) :
    Explores g S way s (g.follow fuel way s next) ∧ next ∈ (g.follow fuel way s next).visited ∧
      (next ∈ way → ∃ c ∈ (g.follow fuel way s next).cycles, c.head? = some next) := by
  unfold follow
  by_cases hw : next ∈ way
  · rw [if_pos (by simpa using hw)]
    refine ⟨.still rfl (List.subset_append_left _ _), h.visited hw, fun _ => ?_⟩
    exact ⟨_, List.mem_append_right _ (List.mem_singleton_self _), head?_cycle hw⟩
  · rw [if_neg (by simpa using hw)]
    by_cases hs : next ∈ s.visited
    · rw [if_pos (by simpa using hs)]
      exact ⟨.still rfl (List.Subset.refl _), hs, fun hm => absurd hm hw⟩
    · rw [if_neg (by simpa using hs)]
      obtain ⟨he, hm⟩ := hv way next s h hn hs
      exact ⟨he.shorten (List.subset_append_left _ _), hm, fun hm => absurd hm hw⟩

theorem foldl_follow_explores (hv : Visits g S fuel) {nodes : List String} (hn : nodes ⊆ g.nodes)
    (h : OnWay g fuel way s) :
    Explores g S way s (nodes.foldl (g.follow fuel way) s) ∧
      ∀ next ∈ nodes, next ∈ (nodes.foldl (g.follow fuel way) s).visited ∧
        (next ∈ way → ∃ c ∈ (nodes.foldl (g.follow fuel way) s).cycles, c.head? = some next) := by
  induction nodes generalizing s with
  | nil => exact ⟨.still rfl (List.Subset.refl _), fun _ hm => by cases hm⟩
  | cons first nodes ih =>
    obtain ⟨hf, hm, hc⟩ := follow_explores hv h (hn List.mem_cons_self)
    obtain ⟨he, hrest⟩ := ih (fun _ hx => hn (List.mem_cons_of_mem _ hx)) (h.mono hf.visited)
    refine ⟨hf.trans he, fun next hnext => ?_⟩
    rcases List.mem_cons.mp hnext with rfl | hnext
    · refine ⟨he.visited hm, fun hw => ?_⟩
      obtain ⟨c, hcycle, hhead⟩ := hc hw
      exact ⟨c, he.cycles hcycle, hhead⟩
    · exact hrest next hnext

/-- If the search meets one node of a connected set first, it meets all of them below that one. -/
theorem Connected.met (hS : Connected g S) {t : Search} {node : String} (hnode : S node)
    (hm : node ∈ t.visited) (hs : ∀ x, S x → x ∉ s.visited)
    (hc : ∀ x ∈ t.visited, x ∉ s.visited → ∀ y ∈ g.successors x, y ∈ t.visited) {x : String}
    (hx : S x) : x ∈ t.visited := by
  suffices h : S x ∧ x ∈ t.visited from h.2
  have hpath := hS.path node x hnode hx
  clear hx
  induction hpath with
  | refl => exact ⟨hnode, hm⟩
  | tail _ hb ih => exact ⟨hb.1, hc _ ih.2 (hs _ ih.1) _ hb.2⟩

theorem visits (hS : Connected g S) (fuel : Nat) : Visits g S fuel := by
  induction fuel with
  | zero =>
    intro way node s h hm hn
    exact absurd (h.fuel_pos hm hn) (Nat.lt_irrefl 0)
  | succ fuel ih =>
    intro way node s h hm hn
    have hsub : g.successors node ⊆ g.nodes := fun _ hy => (List.mem_filter.mp hy).1
    obtain ⟨he, hsuccessors⟩ := foldl_follow_explores ih hsub (h.extend hm hn)
    rw [visit_succ]
    generalize (g.successors node).foldl _ _ = t at he hsuccessors
    have hmet : node ∈ t.visited := he.visited List.mem_cons_self
    have new {x : String} (hx : x ∉ s.visited) (hne : x ≠ node) : x ∉ node :: s.visited :=
      List.not_mem_cons_of_ne_of_not_mem hne hx
    have hclosed (x) (hx : x ∈ t.visited) (hs : x ∉ s.visited) (y) (hy : y ∈ g.successors x) :
        y ∈ t.visited := by
      by_cases hxn : x = node
      · subst hxn
        exact (hsuccessors y hy).1
      · exact he.closed x hx (new hs hxn) y hy
    have hback (x) (hx : x ∈ t.visited) (hs : x ∉ s.visited) (y) (hy : y ∈ g.successors x)
        (hw : y ∈ way ++ [node]) : ∃ c ∈ t.cycles, c.head? = some y := by
      by_cases hxn : x = node
      · subst hxn
        exact (hsuccessors y hy).2 hw
      · exact he.back x hx (new hs hxn) y hy hw
    refine ⟨⟨fun x hx => he.visited (List.mem_cons_of_mem _ hx), he.cycles, hclosed, hback,
      fun hs ht => ?_⟩, hmet⟩
    -- If the node is the first of its set, all of the set is met below it, and one leads back.
    by_cases hnode : S node
    · obtain ⟨y, hy, hentered⟩ := hS.entered node hnode
      obtain ⟨c, hc, hhead⟩ := hback y (hS.met hnode hmet hs hclosed hy) (hs y hy) node hentered
        (by simp)
      exact ⟨c, hc, node, hnode, hhead⟩
    · refine he.finds (fun x hx => new (hs x hx) ?_) ht
      rintro rfl
      exact hnode hx

/-- A cycle is found that starts in a given set of nodes, if they are connected. -/
theorem Connected.exists_cycle (hS : Connected g S) {node : String} (hnode : S node)
    (hm : node ∈ g.nodes) : ∃ c ∈ g.cycles, ∃ x, S x ∧ c.head? = some x := by
  have hway : OnWay g g.nodes.length [] ⟨[], []⟩ :=
    ⟨List.Subset.refl _, List.nil_subset _, List.nodup_nil, Nat.le_refl _⟩
  obtain ⟨he, hmet⟩ := foldl_follow_explores (visits hS _) (List.Subset.refl g.nodes) hway
  rw [cycles_eq]
  exact he.finds (fun _ _ => List.not_mem_nil) ⟨node, hnode, (hmet node hm).1⟩

end
end Workflow.ControlGraph
