import Workflow.Proofs.Lists
import Workflow.Proofs.Pipeline.Cycles

/-!
# The control graph, place by place

A step stands at a place: at a position of a block, which is at the end of a way into a pipeline.
The control graph of a document holds what can be seen at these places and nothing else. Its nodes
are the qualified names of the steps there, its edges are the transitions from these steps, and its
flaws are those of the steps, one for each.
-/
namespace Workflow

/-- A position in the block at the end of a way into a pipeline, which is known by its own position
in the document. -/
structure Place where
  pipeline : Nat
  way : List Nat
  position : Nat
  deriving DecidableEq

/-- A step stands at a position of the block at the end of a way, which has a scope. -/
structure StandsIn (scope : String) (steps : List Step) (way : List Nat) (i : Nat) (inner : String)
    (block : List Step) (st : Step) : Prop where
  reached : blockAt? scope steps way = some (inner, block)
  found : block[i]? = some st

def PipelineDocument.Stands (d : PipelineDocument) (place : Place) (scope : String)
    (block : List Step) (st : Step) : Prop :=
  ∃ pipeline, d.pipelines[place.pipeline]? = some pipeline ∧
    StandsIn pipeline.name pipeline.steps place.way place.position scope block st

/-- Something holds of a step in a block or inside it, of its own block and of its position
there. -/
def Somewhere (P : String → List Step → Nat → Step → Prop) (scope : String) (steps : List Step) :
    Prop :=
  ∃ way i inner block st, StandsIn scope steps way i inner block st ∧ P inner block i st

namespace StandsIn
variable {scope inner : String} {steps block : List Step} {way : List Nat} {i k : Nat} {st : Step}

theorem nil_iff : StandsIn scope steps [] i inner block st ↔
    inner = scope ∧ block = steps ∧ steps[i]? = some st := by
  constructor
  · rintro ⟨hway, hst⟩
    cases hway
    exact ⟨rfl, rfl, hst⟩
  · rintro ⟨rfl, rfl, hst⟩
    exact ⟨rfl, hst⟩

theorem cons_iff : StandsIn scope steps (k :: way) i inner block st ↔
    ∃ outer, steps[k]? = some outer ∧
      StandsIn (ControlGraph.qualify scope outer.name) outer.steps way i inner block st := by
  constructor
  · rintro ⟨hway, hst⟩
    obtain ⟨outer, houter, hway⟩ := Option.bind_eq_some_iff.mp hway
    exact ⟨outer, houter, hway, hst⟩
  · rintro ⟨outer, houter, hway, hst⟩
    exact ⟨Option.bind_eq_some_iff.mpr ⟨outer, houter, hway⟩, hst⟩

end StandsIn

/-- A step in a block or inside it is one of its own, or inside one of these. -/
theorem somewhere_iff {P : String → List Step → Nat → Step → Prop} {scope : String}
    {steps : List Step} : Somewhere P scope steps ↔
      (∃ i st, steps[i]? = some st ∧ P scope steps i st) ∨
        ∃ outer ∈ steps, Somewhere P (ControlGraph.qualify scope outer.name) outer.steps := by
  constructor
  · rintro ⟨_ | ⟨k, way⟩, i, inner, block, st, hst, hp⟩
    · obtain ⟨rfl, rfl, hst⟩ := StandsIn.nil_iff.mp hst
      exact .inl ⟨i, st, hst, hp⟩
    · obtain ⟨outer, houter, hst⟩ := StandsIn.cons_iff.mp hst
      exact .inr ⟨outer, List.mem_of_getElem? houter, way, i, inner, block, st, hst, hp⟩
  · rintro (⟨i, st, hst, hp⟩ | ⟨outer, houter, way, i, inner, block, st, hst, hp⟩)
    · exact ⟨[], i, scope, steps, st, StandsIn.nil_iff.mpr ⟨rfl, rfl, hst⟩, hp⟩
    · obtain ⟨k, hk⟩ := List.mem_iff_getElem?.mp houter
      exact ⟨k :: way, i, inner, block, st, StandsIn.cons_iff.mpr ⟨outer, hk, hst⟩, hp⟩

/-- What holds of a step at a place holds of it somewhere in a pipeline. -/
theorem PipelineDocument.exists_stands {d : PipelineDocument}
    {P : String → List Step → Nat → Step → Prop} :
    (∃ place scope block st, d.Stands place scope block st ∧ P scope block place.position st) ↔
      ∃ pipeline ∈ d.pipelines, Somewhere P pipeline.name pipeline.steps := by
  constructor
  · rintro ⟨place, scope, block, st, ⟨pipeline, hpipeline, hst⟩, hp⟩
    exact ⟨pipeline, List.mem_of_getElem? hpipeline, place.way, place.position, scope, block, st,
      hst, hp⟩
  · rintro ⟨pipeline, hpipeline, way, i, scope, block, st, hst, hp⟩
    obtain ⟨k, hk⟩ := List.mem_iff_getElem?.mp hpipeline
    exact ⟨⟨k, way, i⟩, scope, block, st, ⟨pipeline, hk, hst⟩, hp⟩

namespace ControlGraph
variable {ι κ ε : Type}

/-- A list has one item for each case of a predicate, at an index of its own. -/
def OneForEach (P : ι → ε → Prop) (items : List ε) : Prop :=
  ∃ found : List (ι × ε), found.Nodup ∧ (∀ i e, (i, e) ∈ found ↔ P i e) ∧
    found.map Prod.snd = items

namespace OneForEach

theorem nil {P : ι → ε → Prop} (h : ∀ i e, ¬P i e) : OneForEach P [] :=
  ⟨[], List.nodup_nil, fun i e => by simpa using h i e, rfl⟩

theorem singleton {P : ι → ε → Prop} {i : ι} {e : ε} (h : ∀ j f, P j f ↔ j = i ∧ f = e) :
    OneForEach P [e] :=
  ⟨[(i, e)], List.nodup_singleton _, fun j f => by simp [h], rfl⟩

/-- Cases may get other indices, as long as equal items have different ones. -/
theorem reindex {P : ι → ε → Prop} {Q : κ → ε → Prop} {items : List ε} (h : OneForEach P items)
    (f : ι → κ) (hf : ∀ i j e, P i e → P j e → f i = f j → i = j)
    (hQ : ∀ k e, Q k e ↔ ∃ i, f i = k ∧ P i e) : OneForEach Q items := by
  obtain ⟨found, hnodup, hmem, hitems⟩ := h
  refine ⟨found.map fun p => (f p.1, p.2), hnodup.map_on ?_, fun k e => ?_, ?_⟩
  · rintro ⟨i, e⟩ hi ⟨j, e'⟩ hj heq
    obtain ⟨hij, rfl⟩ := Prod.mk.inj heq
    rw [hf i j e ((hmem i e).mp hi) ((hmem j e).mp hj) hij]
  · rw [hQ, List.mem_map]
    constructor
    · rintro ⟨⟨i, e'⟩, hi, heq⟩
      obtain ⟨rfl, rfl⟩ := Prod.mk.inj heq
      exact ⟨i, rfl, (hmem i e').mp hi⟩
    · rintro ⟨i, rfl, hi⟩
      exact ⟨(i, e), (hmem i e).mpr hi, rfl⟩
  · rw [List.map_map, ← hitems]
    rfl

theorem append {P : ι → ε → Prop} {Q : κ → ε → Prop} {as bs : List ε} (ha : OneForEach P as)
    (hb : OneForEach Q bs) : OneForEach (Sum.elim P Q) (as ++ bs) := by
  obtain ⟨left, hleft, hp, rfl⟩ := ha
  obtain ⟨right, hright, hq, rfl⟩ := hb
  have hinl : Function.Injective fun p : ι × ε => ((Sum.inl p.1 : ι ⊕ κ), p.2) := by
    rintro ⟨i, e⟩ ⟨j, e'⟩ heq
    simpa using heq
  have hinr : Function.Injective fun p : κ × ε => ((Sum.inr p.1 : ι ⊕ κ), p.2) := by
    rintro ⟨i, e⟩ ⟨j, e'⟩ heq
    simpa using heq
  refine ⟨left.map (fun p => (.inl p.1, p.2)) ++ right.map (fun p => (.inr p.1, p.2)),
    List.nodup_append'.mpr ⟨hleft.map hinl, hright.map hinr, ?_⟩, ?_, ?_⟩
  · intro p hp hq
    obtain ⟨a, -, rfl⟩ := List.mem_map.mp hp
    obtain ⟨b, -, heq⟩ := List.mem_map.mp hq
    simp at heq
  · rintro (i | k) e <;> simp [hp, hq]
  · simp [List.map_map, Function.comp_def]

/-- Lists that are put together have one item for each of their cases, by the position of the
list. -/
theorem flatMap {α : Type} {P : α → ι → ε → Prop} {f : α → List ε} {l : List α}
    (h : ∀ a ∈ l, OneForEach (P a) (f a)) :
    OneForEach (fun (q : Nat × ι) e => ∃ a, l[q.1]? = some a ∧ P a q.2 e) (l.flatMap f) := by
  induction l with
  | nil => exact nil fun q e hq => by simp at hq
  | cons a l ih =>
    rw [List.flatMap_cons]
    have hrest := ih fun b hb => h b (List.mem_cons_of_mem a hb)
    refine ((h a List.mem_cons_self).append hrest).reindex
      (Sum.elim (fun i => (0, i)) fun q => (q.1 + 1, q.2)) ?_ ?_
    · rintro (i | ⟨k, i⟩) (j | ⟨m, j⟩) e - - heq <;> simp_all
    · rintro ⟨k, i⟩ e
      cases k with
      | zero => simp [Sum.exists]
      | succ k => simp [Sum.exists]

end OneForEach

theorem mem_blockNames_iff {scope x : String} {steps : List Step} :
    x ∈ blockNames scope steps ↔
      Somewhere (fun inner _ _ st => qualify inner st.name = x) scope steps := by
  induction steps using block_induct generalizing scope with
  | block steps ih =>
    rw [somewhere_iff, blockNames, List.mem_append, innerNames_eq, List.mem_map, List.mem_flatMap]
    refine or_congr ⟨?_, ?_⟩ (exists_congr fun st => and_congr_right fun hst => ih st hst)
    · rintro ⟨st, hst, hx⟩
      obtain ⟨i, hi⟩ := List.mem_iff_getElem?.mp hst
      exact ⟨i, st, hi, hx⟩
    · rintro ⟨i, st, hi, hx⟩
      exact ⟨st, List.mem_of_getElem? hi, hx⟩

theorem mem_blockEdges_iff {scope : String} {steps : List Step} {e : Edge} :
    e ∈ blockEdges scope steps steps ↔
      Somewhere (fun inner block i st => e ∈ stepEdges inner block st block[i + 1]?) scope
        steps := by
  induction steps using block_induct generalizing scope with
  | block steps ih =>
    rw [somewhere_iff]
    constructor
    · intro h
      refine (mem_blockEdges h).imp id ?_
      rintro ⟨st, hst, he⟩
      exact ⟨st, hst, (ih st hst).mp (mem_bodyEdges.mp he)⟩
    · rintro (⟨i, st, hi, he⟩ | ⟨st, hst, he⟩)
      · exact stepEdges_subset scope steps hi he
      · exact bodyEdges_subset scope steps hst ((ih st hst).mpr he)

/-- How a run comes from one step of a document to another, by their qualified names. -/
inductive Transition (d : PipelineDocument) : String → String → Prop
  | next {place scope block s t} : d.Stands place scope block s →
      block[place.position + 1]? = some t →
      Transition d (qualify scope s.name) (qualify scope t.name)
  | inner {place scope block s t} : d.Stands place scope block s → s.steps.head? = some t →
      Transition d (qualify scope s.name) (qualify (qualify scope s.name) t.name)
  | jump {place scope block s t target condition} : d.Stands place scope block s →
      s.action = .jump target condition → block.find? (fun u => u.name == target) = some t →
      Transition d (qualify scope s.name) (qualify scope t.name)

theorem head?_fromName_eq (target : String) (block : List Step) :
    (fromName target block).head? = block.find? (fun u => u.name == target) :=
  (List.find?_eq_head?_dropWhile_not _ block).symm

/-- The edges from a step at a place are the transitions from it. -/
theorem transition_iff {d : PipelineDocument} {x y : String} :
    Transition d x y ↔ ∃ place scope block st, d.Stands place scope block st ∧
      ⟨x, y⟩ ∈ stepEdges scope block st block[place.position + 1]? := by
  simp only [stepEdges, List.mem_append, List.mem_map, Option.mem_toList, head?_fromName_eq]
  constructor
  · rintro (⟨hst, ht⟩ | ⟨hst, ht⟩ | ⟨hst, haction, ht⟩)
    · exact ⟨_, _, _, _, hst, .inl (.inl ⟨_, ht, rfl⟩)⟩
    · exact ⟨_, _, _, _, hst, .inr ⟨_, ht, rfl⟩⟩
    · exact ⟨_, _, _, _, hst, .inl (.inr ⟨_, by rw [haction]; exact ht, rfl⟩)⟩
  · rintro ⟨place, scope, block, st, hst, (⟨t, ht, he⟩ | ⟨t, ht, he⟩) | ⟨t, ht, he⟩⟩ <;> cases he
    · exact .next hst ht
    · obtain ⟨target, htarget, ht⟩ := Option.bind_eq_some_iff.mp ht
      obtain ⟨condition, haction⟩ := jumpTarget?_eq_some htarget
      exact .jump hst haction ht
    · exact .inner hst ht

theorem leads_iff {d : PipelineDocument} {x y : String} :
    (ofDocument d).Leads x y ↔ Transition d x y := by
  rw [transition_iff, PipelineDocument.exists_stands
      (P := fun scope block i st => ⟨x, y⟩ ∈ stepEdges scope block st block[i + 1]?),
    Leads, ofDocument, List.mem_flatMap]
  exact exists_congr fun _ => and_congr_right fun _ => mem_blockEdges_iff

theorem mem_nodes_iff {d : PipelineDocument} {x : String} : x ∈ (ofDocument d).nodes ↔
    ∃ place scope block st, d.Stands place scope block st ∧ qualify scope st.name = x := by
  rw [PipelineDocument.exists_stands (P := fun scope _ _ st => qualify scope st.name = x),
    ofDocument, List.mem_eraseDups, List.mem_flatMap]
  exact exists_congr fun _ => and_congr_right fun _ => mem_blockNames_iff

/-- What is wrong with a step at a position of a block: its name is that of an earlier step, or it
jumps to a name that no step has. -/
inductive Flaw (scope : String) (block : List Step) (i : Nat) (st : Step) : GraphError → Prop
  | duplicate : st.name ∈ (block.take i).map Step.name →
      Flaw scope block i st (.duplicateStep scope st.name)
  | target {target condition} : st.action = .jump target condition →
      target ∉ block.map Step.name → Flaw scope block i st (.unknownTarget scope st.name target)

/-- A name is met again at a position of a block, after some names that were seen before it. -/
def MetAgain (scope : String) (seen : List String) (block : List Step) (i : Nat) (e : GraphError) :
    Prop :=
  ∃ st, block[i]? = some st ∧ (st.name ∈ seen ∨ st.name ∈ (block.take i).map Step.name) ∧
    e = .duplicateStep scope st.name

/-- A step jumps to a name that no step of its block has. -/
def JumpsNowhere (scope : String) (block : List Step) (st : Step) (e : GraphError) : Prop :=
  ∃ target condition, st.action = .jump target condition ∧ target ∉ block.map Step.name ∧
    e = .unknownTarget scope st.name target

theorem flaw_iff {scope : String} {block : List Step} {i : Nat} {st : Step} {e : GraphError}
    (hst : block[i]? = some st) :
    Flaw scope block i st e ↔ MetAgain scope [] block i e ∨ JumpsNowhere scope block st e := by
  constructor
  · rintro (hname | ⟨haction, hnone⟩)
    · exact .inl ⟨st, hst, .inr hname, rfl⟩
    · exact .inr ⟨_, _, haction, hnone, rfl⟩
  · rintro (⟨st', hst', hname, rfl⟩ | ⟨target, condition, haction, hnone, rfl⟩)
    · cases hst.symm.trans hst'
      exact .duplicate (hname.resolve_left List.not_mem_nil)
    · exact .target haction hnone

namespace MetAgain
variable {scope : String} {seen : List String} {first : Step} {block : List Step} {i : Nat}
  {e : GraphError}

theorem zero_iff : MetAgain scope seen (first :: block) 0 e ↔
    first.name ∈ seen ∧ e = .duplicateStep scope first.name := by
  simp [MetAgain]

theorem succ_iff : MetAgain scope seen (first :: block) (i + 1) e ↔
    MetAgain scope (first.name :: seen) block i e := by
  simp only [MetAgain, List.take_succ_cons, List.map_cons, List.getElem?_cons_succ, List.mem_cons,
    or_left_comm, or_assoc]

theorem cons_iff_of_mem {name : String} (h : name ∈ seen) :
    MetAgain scope (name :: seen) block i e ↔ MetAgain scope seen block i e := by
  have hsame (x : String) : x ∈ name :: seen ↔ x ∈ seen :=
    ⟨fun hx => (List.mem_cons.mp hx).elim (· ▸ h) id, List.mem_cons_of_mem name⟩
  simp only [MetAgain, hsame]

end MetAgain

/-- The flaws of names that are met again: one for each step with a name that was seen before. -/
theorem duplicates_oneForEach (scope : String) (seen : List String) (block : List Step) :
    OneForEach (MetAgain scope seen block) (duplicates scope seen block) := by
  induction block generalizing seen with
  | nil => exact .nil fun i e h => by simp [MetAgain] at h
  | cons first block ih =>
    rw [duplicates]
    split
    · rename_i hseen
      have hseen : first.name ∈ seen := List.contains_iff_mem.mp hseen
      have hfirst : OneForEach (fun (_ : Unit) e => e = GraphError.duplicateStep scope first.name)
          [.duplicateStep scope first.name] := .singleton (i := ()) fun j f => by simp
      refine (hfirst.append (ih seen)).reindex (Sum.elim (fun _ => 0) fun i => i + 1) ?_ ?_
      · rintro (i | i) (j | j) e - - heq <;> simp_all
      · rintro (_ | i) e
        · simp [Sum.exists, MetAgain.zero_iff, hseen]
        · simp [Sum.exists, MetAgain.succ_iff, MetAgain.cons_iff_of_mem hseen]
    · rename_i hseen
      have hseen : first.name ∉ seen := fun h => hseen (List.contains_iff_mem.mpr h)
      refine (ih (first.name :: seen)).reindex (fun i => i + 1)
        (fun i j e _ _ h => by simpa using h) ?_
      rintro (_ | i) e
      · simp [MetAgain.zero_iff, hseen]
      · simp [MetAgain.succ_iff]

theorem jumpErrors_oneForEach (scope : String) (block : List Step) (st : Step) :
    OneForEach (fun _ : Unit => JumpsNowhere scope block st) (jumpErrors scope block st) := by
  unfold jumpErrors
  split
  · rename_i target htarget
    obtain ⟨condition, haction⟩ := jumpTarget?_eq_some htarget
    simp only [List.isEmpty_iff, fromName_eq_nil, position?_eq_none]
    split
    · exact .singleton (i := ()) fun j e => by simp_all [JumpsNowhere]
    · exact .nil fun _ e => by simp_all [JumpsNowhere]
  · rename_i hnone
    refine .nil ?_
    rintro - e ⟨target, condition, haction, -⟩
    rw [haction] at hnone
    cases hnone

theorem blockErrors_eq (scope : String) (block rest : List Step) :
    blockErrors scope block rest = rest.flatMap fun st =>
      jumpErrors scope block st ++ blockFlaws (qualify scope st.name) st.steps := by
  induction rest with
  | nil => rfl
  | cons st rest ih =>
    rw [blockErrors, ih, List.flatMap_cons]
    cases st
    rfl

/-- A flaw is found in a block: for a name, for a jump of one of its steps, or further inside this
step. -/
def Found (scope : String) (steps : List Step) :
    Nat ⊕ (Nat × (Unit ⊕ (List Nat × Nat))) → GraphError → Prop :=
  Sum.elim (MetAgain scope [] steps) fun q e => ∃ st, steps[q.1]? = some st ∧
    Sum.elim (fun _ => JumpsNowhere scope steps st)
      (fun q e => ∃ inner block inside,
        StandsIn (qualify scope st.name) st.steps q.1 q.2 inner block inside ∧
          Flaw inner block q.2 inside e) q.2 e

/-- Where in a block the flaw is that was found for a name, for a jump, or further inside. -/
def flawPlace : Nat ⊕ (Nat × (Unit ⊕ (List Nat × Nat))) → List Nat × Nat
  | .inl i => ([], i)
  | .inr (i, .inl _) => ([], i)
  | .inr (k, .inr (way, i)) => (k :: way, i)

/-- The same flaw is not found twice at one place: what is told of a name is not told of a jump. -/
theorem Found.eq_of_place {scope : String} {steps : List Step} {e : GraphError}
    (p q : Nat ⊕ (Nat × (Unit ⊕ (List Nat × Nat)))) (hp : Found scope steps p e)
    (hq : Found scope steps q e) (h : flawPlace p = flawPlace q) : p = q := by
  rcases p with i | ⟨k, _ | ⟨way, i⟩⟩ <;> rcases q with j | ⟨l, _ | ⟨way', j⟩⟩
  all_goals simp only [flawPlace, Prod.mk.injEq, true_and, List.cons.injEq, reduceCtorEq,
    false_and] at h
  · rw [h]
  · obtain ⟨_, -, -, he⟩ := hp
    obtain ⟨_, -, _, _, -, -, he'⟩ := hq
    cases he.symm.trans he'
  · obtain ⟨_, -, _, _, -, -, he'⟩ := hp
    obtain ⟨_, -, -, he⟩ := hq
    cases he.symm.trans he'
  · rw [h]
  · obtain ⟨⟨rfl, rfl⟩, rfl⟩ := h
    rfl

/-- The flaws of the steps of a block and inside it are those that are found. -/
theorem flaw_iff_found {scope : String} {steps : List Step} {way : List Nat} {i : Nat}
    {e : GraphError} : (∃ inner block st, StandsIn scope steps way i inner block st ∧
        Flaw inner block i st e) ↔ ∃ p, flawPlace p = (way, i) ∧ Found scope steps p e := by
  constructor
  · rintro ⟨inner, block, st, hst, hflaw⟩
    cases way with
    | nil =>
      obtain ⟨rfl, rfl, hst⟩ := StandsIn.nil_iff.mp hst
      obtain hname | hjump := (flaw_iff hst).mp hflaw
      · exact ⟨.inl i, rfl, hname⟩
      · exact ⟨.inr (i, .inl ()), rfl, st, hst, hjump⟩
    | cons k way =>
      obtain ⟨outer, houter, hst⟩ := StandsIn.cons_iff.mp hst
      exact ⟨.inr (k, .inr (way, i)), rfl, outer, houter, inner, block, st, hst, hflaw⟩
  · rintro ⟨j | ⟨j, _ | ⟨way, j⟩⟩, hplace, hfound⟩ <;> cases hplace
    · obtain ⟨st, hst, -⟩ := id hfound
      exact ⟨scope, steps, st, StandsIn.nil_iff.mpr ⟨rfl, rfl, hst⟩,
        (flaw_iff hst).mpr (.inl hfound)⟩
    · obtain ⟨st, hst, hjump⟩ := hfound
      exact ⟨scope, steps, st, StandsIn.nil_iff.mpr ⟨rfl, rfl, hst⟩,
        (flaw_iff hst).mpr (.inr hjump)⟩
    · obtain ⟨outer, houter, inner, block, st, hst, hflaw⟩ := hfound
      exact ⟨inner, block, st, StandsIn.cons_iff.mpr ⟨outer, houter, hst⟩, hflaw⟩

/-- A block lists the flaws of its steps and of those inside it, one for each. -/
theorem blockFlaws_oneForEach (scope : String) (steps : List Step) :
    OneForEach (fun (q : List Nat × Nat) e => ∃ inner block st,
      StandsIn scope steps q.1 q.2 inner block st ∧ Flaw inner block q.2 st e)
      (blockFlaws scope steps) := by
  induction steps using block_induct generalizing scope with
  | block steps ih =>
    have herrors := OneForEach.flatMap fun st hst =>
      (jumpErrors_oneForEach scope steps st).append (ih st hst (qualify scope st.name))
    have hfound : OneForEach (Found scope steps) (blockFlaws scope steps) := by
      rw [blockFlaws, blockErrors_eq]
      exact (duplicates_oneForEach scope [] steps).append herrors
    exact hfound.reindex flawPlace (fun p q _ hp hq => Found.eq_of_place p q hp hq)
      fun _ _ => flaw_iff_found

/-- A document lists the flaws of all its steps, one for each. -/
theorem errors_oneForEach (d : PipelineDocument) :
    OneForEach (fun place e => ∃ scope block st,
      d.Stands place scope block st ∧ Flaw scope block place.position st e)
      (ofDocument d).errors := by
  have hflaws := OneForEach.flatMap fun (p : Pipeline) (_ : p ∈ d.pipelines) =>
    blockFlaws_oneForEach p.name p.steps
  refine hflaws.reindex (fun q => ⟨q.1, q.2.1, q.2.2⟩) ?_ ?_
  · rintro ⟨k, way, i⟩ ⟨l, way', j⟩ e - - heq
    cases heq
    rfl
  · rintro ⟨k, way, i⟩ e
    constructor
    · rintro ⟨scope, block, st, ⟨pipeline, hp, hst⟩, hflaw⟩
      exact ⟨(k, way, i), rfl, pipeline, hp, scope, block, st, hst, hflaw⟩
    · rintro ⟨_, heq, pipeline, hp, scope, block, st, hst, hflaw⟩
      cases heq
      exact ⟨scope, block, st, ⟨pipeline, hp, hst⟩, hflaw⟩

/-- **The control graph of a document.** It has an edge from one name to another exactly for a
transition between steps of these names, and these are the successors that it tells; its nodes are
the qualified names of all steps, each once; and its flaws are those of all steps, one for each. -/
theorem graph_exact (d : PipelineDocument) :
    (∀ x y, (⟨x, y⟩ : Edge) ∈ (ofDocument d).edges ↔ Transition d x y) ∧
    (∀ x y, y ∈ (ofDocument d).successors x ↔ Transition d x y) ∧
    (ofDocument d).nodes.Nodup ∧
    (∀ x, x ∈ (ofDocument d).nodes ↔
      ∃ place scope block st, d.Stands place scope block st ∧ qualify scope st.name = x) ∧
    OneForEach (fun place e => ∃ scope block st,
      d.Stands place scope block st ∧ Flaw scope block place.position st e)
      (ofDocument d).errors := by
  refine ⟨fun x y => leads_iff, fun x y => ?_, List.nodup_eraseDups _, fun x => mem_nodes_iff,
    errors_oneForEach d⟩
  exact (iff_of_eq (congrFun₂ (adjacent_eq_leads d) x y)).trans leads_iff

end ControlGraph
end Workflow
