import Workflow.Proofs.Pipeline.Search
import Mathlib.Data.List.Chain
import Mathlib.Data.List.TakeWhile

/-!
# The search as a system of rules

The search is told by rules without fuel: a node on the way closes a cycle, a node met before is
passed over, and any other node is entered. At every place one rule applies, and the fuel of the
search lets it follow the rules to the end, since the nodes of a way are all different. The way
follows the edges, so the part of it that a cycle repeats does too.
-/
namespace Workflow.ControlGraph
open Relation

/-- From a state of the search, the nodes that follow the last one of a way have been looked at in
order, with all that is entered from them. -/
inductive Descends (g : ControlGraph) : List String → List String → Search → Search → Prop where
  | done {way s} : Descends g way [] s s
  | closes {way next nodes s t} : next ∈ way →
      Descends g way nodes
        { s with cycles := s.cycles ++ [way.dropWhile (· != next) ++ [next]] } t →
      Descends g way (next :: nodes) s t
  | passes {way next nodes s t} : next ∉ way → next ∈ s.visited → Descends g way nodes s t →
      Descends g way (next :: nodes) s t
  | enters {way next nodes s t u} : next ∉ way → next ∉ s.visited →
      Descends g (way ++ [next]) (g.successors next) { s with visited := next :: s.visited } t →
      Descends g way nodes t u → Descends g way (next :: nodes) s u

/-- A walk from a node back to itself that meets no node twice on its way. -/
structure IsCycle (r : String → String → Prop) (c : List String) : Prop where
  closed : ∃ node inner, c = node :: (inner ++ [node])
  edges : c.IsChain r
  simple : c.dropLast.Nodup

namespace IsCycle
variable {r r' : String → String → Prop} {c : List String} {x y : String}

/-- The node where a cycle starts leads to all its nodes, and all lead to it. -/
theorem exists_start (h : IsCycle r c) :
    ∃ x, c.head? = some x ∧ TransGen r x x ∧ ∀ y ∈ c, ReflTransGen r x y ∧ ReflTransGen r y x := by
  obtain ⟨⟨x, inner, rfl⟩, hedges, -⟩ := h
  have hpairs : (x :: (inner ++ [x])).Pairwise (TransGen r) :=
    (hedges.imp fun _ _ => TransGen.single).pairwise
  obtain ⟨hfrom, hrest⟩ := List.pairwise_cons.mp hpairs
  obtain ⟨-, -, hto⟩ := List.pairwise_append.mp hrest
  refine ⟨x, rfl, hfrom x (by simp), fun y hy => ?_⟩
  rcases List.mem_cons.mp hy with rfl | hy
  · exact ⟨.refl, .refl⟩
  refine ⟨(hfrom y hy).to_reflTransGen, ?_⟩
  rcases List.mem_append.mp hy with hy | hy
  · exact (hto y hy x (List.mem_singleton_self x)).to_reflTransGen
  · cases List.mem_singleton.mp hy
    exact .refl

end IsCycle

namespace Descends
variable {g : ControlGraph} {way nodes : List String} {s t u : Search}

theorem visited_subset (h : Descends g way nodes s t) : s.visited ⊆ t.visited := by
  induction h with
  | done => exact List.Subset.refl _
  | closes _ _ ih => exact ih
  | passes _ _ _ ih => exact ih
  | enters _ _ _ _ ih ihrest =>
    exact List.Subset.trans (List.subset_cons_self _ _) (List.Subset.trans ih ihrest)

/-- The rules leave no choice. -/
theorem unique (h : Descends g way nodes s t) (h' : Descends g way nodes s u) : u = t := by
  induction h generalizing u with
  | done =>
    cases h'
    rfl
  | closes hway _ ih =>
    cases h' with
    | closes _ h' => exact ih h'
    | passes hn => exact absurd hway hn
    | enters hn => exact absurd hway hn
  | passes hway hmet _ ih =>
    cases h' with
    | closes hm => exact absurd hm hway
    | passes _ _ h' => exact ih h'
    | enters _ hn => exact absurd hmet hn
  | enters hway hnew _ _ ih ihrest =>
    cases h' with
    | closes hm => exact absurd hm hway
    | passes _ hm => exact absurd hm hnew
    | enters _ _ h' hrest' =>
      cases ih h'
      exact ihrest hrest'

/-- If a way follows the edges and they go on to the nodes after it, all that is reported from there
is a cycle. -/
theorem cycles_sound (h : Descends g way nodes s t) (hway : way.Nodup)
    (hnodes : ∀ next ∈ nodes, (way ++ [next]).IsChain g.Adjacent) {c : List String}
    (hc : c ∈ t.cycles) : c ∈ s.cycles ∨ IsCycle g.Adjacent c := by
  induction h with
  | done => exact .inl hc
  | @closes way next nodes s t hnext _ ih =>
    obtain ⟨hfirst, hrest⟩ := List.forall_mem_cons.mp hnodes
    refine (ih hway hrest hc).elim (fun hc => ?_) .inr
    refine (List.mem_append.mp hc).imp_right fun hc => ?_
    cases List.mem_singleton.mp hc
    have hslice := List.dropWhile_suffix (l := way) (· != next)
    obtain ⟨inner, hinner⟩ := dropWhile_eq_cons hnext
    refine ⟨⟨next, inner, by rw [hinner]; rfl⟩, ?_, ?_⟩
    · exact hfirst.suffix (List.suffix_append_self_iff.mpr hslice)
    · rw [List.dropLast_concat]
      exact hway.sublist hslice.sublist
  | passes _ _ _ ih => exact ih hway (List.forall_mem_cons.mp hnodes).2 hc
  | @enters way next nodes s t u hn _ _ _ ih ihrest =>
    obtain ⟨hfirst, hrest⟩ := List.forall_mem_cons.mp hnodes
    refine (ihrest hway hrest hc).elim (fun hc => ?_) .inr
    refine ih ?_ (fun y hy => ?_) hc
    · rw [← List.concat_eq_append]
      exact hway.concat hn
    · refine List.isChain_append.mpr ⟨hfirst, .singleton y, ?_⟩
      simpa [Adjacent] using hy

end Descends

section
variable {g : ControlGraph} {fuel : Nat} {way : List String} {s : Search}

/-- Visiting a node follows the rules below it. -/
abbrev VisitsDescend (g : ControlGraph) (fuel : Nat) : Prop :=
  ∀ way node s, OnWay g fuel way s → node ∈ g.nodes → node ∉ s.visited →
    Descends g (way ++ [node]) (g.successors node) { s with visited := node :: s.visited }
      (g.visit fuel way node s)

theorem foldl_follow_descends (hv : VisitsDescend g fuel) {nodes : List String}
    (hn : nodes ⊆ g.nodes) (h : OnWay g fuel way s) :
    Descends g way nodes s (nodes.foldl (g.follow fuel way) s) := by
  induction nodes generalizing s with
  | nil => exact .done
  | cons next nodes ih =>
    obtain ⟨hnext, hrest⟩ := List.cons_subset.mp hn
    rw [List.foldl_cons, follow]
    by_cases hway : next ∈ way
    · rw [if_pos (by simpa using hway)]
      exact .closes hway (ih hrest (h.mono (List.Subset.refl _)))
    · rw [if_neg (by simpa using hway)]
      by_cases hmet : next ∈ s.visited
      · rw [if_pos (by simpa using hmet)]
        exact .passes hway hmet (ih hrest h)
      · rw [if_neg (by simpa using hmet)]
        have hbelow := hv way next s h hnext hmet
        have hmore := List.Subset.trans (List.subset_cons_self _ _) hbelow.visited_subset
        exact .enters hway hmet hbelow (ih hrest (h.mono hmore))

theorem visits_descend (fuel : Nat) : VisitsDescend g fuel := by
  induction fuel with
  | zero =>
    intro way node s h hm hn
    exact absurd (h.fuel_pos hm hn) (Nat.lt_irrefl 0)
  | succ fuel ih =>
    intro way node s h hm hn
    rw [visit_succ]
    exact foldl_follow_descends ih (fun _ hy => (List.mem_filter.mp hy).1) (h.extend hm hn)

/-- The search follows its rules from the first node to the last. -/
theorem cycles_descends (g : ControlGraph) :
    ∃ t, Descends g [] g.nodes ⟨[], []⟩ t ∧ t.cycles = g.cycles := by
  have hway : OnWay g g.nodes.length [] ⟨[], []⟩ :=
    ⟨List.Subset.refl _, List.nil_subset _, List.nodup_nil, Nat.le_refl _⟩
  exact ⟨_, foldl_follow_descends (visits_descend _) (List.Subset.refl _) hway, (cycles_eq g).symm⟩

end

/-- Every list that the search reports is a cycle. -/
theorem cycles_isCycle {g : ControlGraph} {c : List String} (hc : c ∈ g.cycles) :
    IsCycle g.Adjacent c := by
  obtain ⟨t, ht, hcycles⟩ := cycles_descends g
  refine (ht.cycles_sound List.nodup_nil (fun _ _ => .singleton _) (hcycles ▸ hc)).resolve_left ?_
  exact List.not_mem_nil

/-- A cycle starts at a node that leads back to itself. -/
def Returns (g : ControlGraph) (c : List String) : Prop :=
  ∃ x, c.head? = some x ∧ TransGen g.Adjacent x x

/-- Every cycle that the search finds starts at a node that leads back to itself. -/
theorem cycles_return (g : ControlGraph) : ∀ c ∈ g.cycles, g.Returns c := by
  intro c hc
  obtain ⟨x, hx, hreturn, -⟩ := (cycles_isCycle hc).exists_start
  exact ⟨x, hx, hreturn⟩

end Workflow.ControlGraph
