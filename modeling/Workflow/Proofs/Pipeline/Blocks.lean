import Workflow.Pipeline.Graph

/-!
# Blocks and positions

A jump leads to a position of its own block. The blocks inside a block are those of its steps, at
any depth. Positions lead from the outermost block to each of them, and so do names, which make up
its scope.
-/
namespace Workflow
open ControlGraph

def position? (steps : List Step) (target : String) : Option Nat :=
  steps.findIdx? (fun s => s.name == target)

theorem position?_eq_none {steps : List Step} {target : String} :
    position? steps target = none ↔ target ∉ steps.map Step.name := by
  rw [position?, List.findIdx?_eq_none_iff, List.mem_map]
  constructor
  · rintro h ⟨st, hst, rfl⟩
    simpa using h st hst
  · intro h st hst
    simpa using fun heq => h ⟨st, hst, heq⟩

/-- What holds of a block if it holds of the blocks of its steps, holds of all blocks. -/
theorem block_induct {P : List Step → Prop}
    (block : ∀ steps, (∀ st ∈ steps, P st.steps) → P steps) (steps : List Step) : P steps :=
  block steps fun st _ => block_induct block st.steps
termination_by sizeOf steps
decreasing_by
  rename_i hst
  have hlt := List.sizeOf_lt_of_mem hst
  cases st
  simp only [Step.mk.sizeOf_spec] at hlt ⊢
  omega

/-- A block is another one, or inside it. -/
inductive Inside (steps : List Step) : List Step → Prop
  | here : Inside steps steps
  | step {block st} : Inside steps block → st ∈ block → Inside steps st.steps

/-- Every jump inside a block leads to a later step, if it leads anywhere. -/
def Forward (steps : List Step) : Prop :=
  ∀ block, Inside steps block → ∀ i st target condition j, block[i]? = some st →
    st.action = .jump target condition → position? block target = some j → i < j

theorem Inside.of_mem {steps block : List Step} {st : Step} (hs : st ∈ steps)
    (h : Inside st.steps block) : Inside steps block := by
  induction h with
  | here => exact .step .here hs
  | step _ hst ih => exact .step ih hst

theorem Forward.inside {steps : List Step} (h : Forward steps) {st : Step} (hs : st ∈ steps) :
    Forward st.steps :=
  fun block hb => h block (hb.of_mem hs)

theorem Inside.cases_step {steps block : List Step} (h : Inside steps block) :
    block = steps ∨ ∃ st ∈ steps, Inside st.steps block := by
  induction h with
  | here => exact .inl rfl
  | @step block st hb hst ih =>
    rcases ih with rfl | ⟨outer, houter, hb⟩
    · exact .inr ⟨st, hst, .here⟩
    · exact .inr ⟨outer, houter, .step hb hst⟩

/-- A block only jumps forward if its own jumps do and those inside its steps. -/
theorem Forward.of_steps {steps : List Step}
    (hown : ∀ i st target condition j, steps[i]? = some st → st.action = .jump target condition →
      position? steps target = some j → i < j)
    (hinner : ∀ st ∈ steps, Forward st.steps) : Forward steps := by
  intro block hb
  rcases hb.cases_step with rfl | ⟨st, hst, hb⟩
  · exact hown
  · exact hinner st hst block hb

theorem Forward.nil : Forward [] := .of_steps nofun nofun

theorem Forward.of_idle {steps : List Step}
    (hown : ∀ st ∈ steps, ∀ target condition, st.action ≠ .jump target condition)
    (hinner : ∀ st ∈ steps, st.steps = []) : Forward steps := by
  refine .of_steps (fun i st target condition j hi haction => ?_) fun st hst => ?_
  · exact absurd haction (hown st (List.mem_of_getElem? hi) target condition)
  · exact hinner st hst ▸ .nil

/-- The block at the end of a way, after its scope. -/
def blockAt? (scope : String) (steps : List Step) : List Nat → Option (String × List Step)
  | [] => some (scope, steps)
  | i :: way => steps[i]?.bind fun st => blockAt? (qualify scope st.name) st.steps way

/-- The qualified name of the step at the end of a way. -/
def Pipeline.nodeAt? (pipeline : Pipeline) (way : List Nat) : Option String :=
  (blockAt? pipeline.name pipeline.steps way).map Prod.fst

theorem blockAt?_append {scope inner : String} {steps block : List Step} {way : List Nat}
    (h : blockAt? scope steps way = some (inner, block)) (i : Nat) :
    blockAt? scope steps (way ++ [i]) =
      block[i]?.map fun st => (qualify inner st.name, st.steps) := by
  induction way generalizing scope steps with
  | nil =>
    cases h
    rw [List.nil_append, blockAt?]
    cases block[i]? <;> rfl
  | cons k way ih =>
    obtain ⟨st, hst, h⟩ := Option.bind_eq_some_iff.mp h
    rw [List.cons_append, blockAt?, hst]
    exact ih h

theorem blockAt?_of_append {scope : String} {steps : List Step} {way : List Nat} {i : Nat}
    {b : String × List Step} (h : blockAt? scope steps (way ++ [i]) = some b) :
    ∃ outer, blockAt? scope steps way = some outer ∧
      ∃ st, outer.2[i]? = some st ∧ (qualify outer.1 st.name, st.steps) = b := by
  induction way generalizing scope steps with
  | nil =>
    obtain ⟨st, hst, hb⟩ := Option.bind_eq_some_iff.mp h
    exact ⟨_, rfl, st, hst, Option.some.inj hb⟩
  | cons k way ih =>
    obtain ⟨st, hst, h⟩ := Option.bind_eq_some_iff.mp h
    rw [blockAt?, hst]
    exact ih h

theorem Pipeline.nodeAt?_step {pipeline : Pipeline} {scope : String} {block : List Step}
    {way : List Nat} (h : blockAt? pipeline.name pipeline.steps way = some (scope, block)) {i : Nat}
    {st : Step} (hi : block[i]? = some st) :
    pipeline.nodeAt? (way ++ [i]) = some (qualify scope st.name) := by
  rw [nodeAt?, blockAt?_append h, hi]
  rfl

/-- The blocks inside a block are those at the ends of ways. -/
theorem Inside.exists_blockAt? {steps block : List Step} (h : Inside steps block)
    (scope : String) : ∃ way inner, blockAt? scope steps way = some (inner, block) := by
  induction h with
  | here => exact ⟨[], scope, rfl⟩
  | @step block st _ hst ih =>
    obtain ⟨way, inner, hway⟩ := ih
    obtain ⟨i, hi⟩ := List.mem_iff_getElem?.mp hst
    exact ⟨way ++ [i], qualify inner st.name, by rw [blockAt?_append hway, hi]; rfl⟩

end Workflow
