import Workflow.Pipeline.Reader
import Workflow.Proofs.Attempt
import Workflow.Proofs.Pipeline.Blocks

/-!
# What is read

A reader refuses steps that make no sense by themselves: a jump that iterates, or a call of no
plugin. It looks at every step before the steps inside it, so that a step that is read is legal at
any depth. Pipelines are refused if they repeat a name.
-/
namespace Workflow
open Attempt

theorem Decoder.list_any (items : List Json) : Decoder.list .any (.arr items) = .ok items := by
  change items.mapM (pure : Json → Except DecodeError Json) = pure items
  rw [List.mapM_pure, List.map_id']

namespace Record
variable {α β : Type}

/-- What is built as a record from some fields has a property. -/
def GivesAt (r : Record α) (s : FieldSource) (P : α → Prop) : Prop := ∀ a, r.build s = .ok a → P a

/-- Whatever is built as a record has a property. -/
def Gives (r : Record α) (P : α → Prop) : Prop := ∀ s a, r.build s = .ok a → P a

namespace GivesAt
variable {s : FieldSource}

theorem of_all {r : Record α} {P : α → Prop} (h : ∀ a, P a) : r.GivesAt s P := fun a _ => h a

theorem imp {r : Record α} {P Q : α → Prop} (h : r.GivesAt s P) (hPQ : ∀ a, P a → Q a) :
    r.GivesAt s Q :=
  fun a ha => hPQ a (h a ha)

theorem map {f : α → β} {r : Record α} {P : β → Prop} (h : r.GivesAt s fun a => P (f a)) :
    (f <$> r).GivesAt s P := by
  intro b hb
  obtain ⟨a, ha, rfl⟩ := ok_of_map hb
  exact h a ha

theorem seq_with {g : Record (α → β)} {r : Record α} {Q : α → Prop} {P : β → Prop}
    (hg : g.GivesAt s fun f => ∀ a, Q a → P (f a)) (hr : r.GivesAt s Q) :
    (g <*> r).GivesAt s P := by
  intro b hb
  obtain ⟨f, hf, hb⟩ := ok_of_bind hb
  obtain ⟨a, ha, hb⟩ := ok_of_bind hb
  cases hb
  exact hg f hf a (hr a ha)

theorem seq {g : Record (α → β)} {r : Record α} {P : β → Prop}
    (hg : g.GivesAt s fun f => ∀ a, P (f a)) : (g <*> r).GivesAt s P :=
  seq_with (Q := fun _ => True) (fun f hf a _ => hg f hf a) (.of_all fun _ => trivial)

theorem of_ofTable {r : Record α} {t : Table Json} {P : α → Prop}
    (h : r.GivesAt ⟨t.get?, .missing, false⟩ P) {a : α} (ha : r.ofTable t = .ok a) : P a := by
  obtain ⟨_, -, ha⟩ := ok_of_bind ha
  exact h a ha

/-- A text that must be there is found under its name. -/
theorem required_text (name : String) :
    (Record.required name Decoder.text).GivesAt s fun text => s.find name = some (.str text) := by
  intro text h
  rw [Record.required, field] at h
  dsimp only at h
  split at h
  · rename_i v hv
    cases v <;> cases h
    exact hv
  · cases h

/-- A list of any values that may be left out is the one that is there. -/
theorem default_list (name : String) {default : List Json} :
    (Record.withDefault name (.list .any) default).GivesAt s fun items =>
      s.find name = none ∧ items = default ∨ s.find name = some (.arr items) := by
  intro items h
  rw [withDefault, field] at h
  dsimp only at h
  split at h
  · rename_i v hv
    cases v with
    | arr found =>
      rw [Decoder.list_any] at h
      cases h
      exact .inr hv
    | _ => cases h
  · rename_i hv
    cases h
    exact .inl ⟨hv, rfl⟩

end GivesAt

namespace Gives

theorem of_all {r : Record α} {P : α → Prop} (h : ∀ a, P a) : r.Gives P :=
  fun _ => GivesAt.of_all h

theorem map {f : α → β} {r : Record α} {P : β → Prop} (h : r.Gives fun a => P (f a)) :
    (f <$> r).Gives P :=
  fun s => GivesAt.map (h s)

theorem seq_with {g : Record (α → β)} {r : Record α} {Q : α → Prop} {P : β → Prop}
    (hg : g.Gives fun f => ∀ a, Q a → P (f a)) (hr : r.Gives Q) : (g <*> r).Gives P :=
  fun s => GivesAt.seq_with (hg s) (hr s)

theorem seq {g : Record (α → β)} {r : Record α} {P : β → Prop}
    (hg : g.Gives fun f => ∀ a, P (f a)) : (g <*> r).Gives P :=
  fun s => GivesAt.seq (hg s)

theorem of_ofTable {r : Record α} {P : α → Prop} (h : r.Gives P) {t : Table Json} {a : α}
    (ha : r.ofTable t = .ok a) : P a :=
  GivesAt.of_ofTable (h _) ha

/-- Null is read as no value. -/
theorem optional_any (name : String) :
    (Record.optional name Decoder.any).Gives fun o => o ≠ some .null := by
  intro s o ho
  rw [Record.optional, withDefault, field] at ho
  dsimp only at ho
  split at ho
  · rename_i v _
    cases v <;> cases ho <;> nofun
  · cases ho
    nofun

end Gives
end Record

/-- What makes sense as the action of a step that iterates, or does not. -/
structure Action.Legal (iterates : Bool) (action : Action) : Prop where
  control : action.isControl = true → iterates = false
  plugin : ∀ call, action = .plugin call → call.plugin ≠ none ∨ iterates = true
  default : ∀ path destination, action ≠ .loadContext path destination (some .null)

/-- A step makes sense, with all the steps inside it. -/
inductive Step.Legal : Step → Prop
  | intro {st : Step} : st.action.Legal st.iterate.isSome → (∀ inner ∈ st.steps, inner.Legal) →
      st.Legal

namespace Step.Legal

theorem action {st : Step} (h : st.Legal) : st.action.Legal st.iterate.isSome := by
  cases h with
  | intro h _ => exact h

theorem inside {st : Step} (h : st.Legal) : ∀ inner ∈ st.steps, inner.Legal := by
  cases h with
  | intro _ h => exact h

end Step.Legal

theorem Inside.legal {steps block : List Step} (h : Inside steps block)
    (hs : ∀ st ∈ steps, st.Legal) : ∀ st ∈ block, st.Legal := by
  induction h with
  | here => exact hs
  | step _ hst ih => exact (ih _ hst).inside

def Action.path? : Action → Option String
  | .setContext path _ | .loadContext path _ _ | .appendContext path _ | .saveContext _ path =>
    some path
  | _ => none

/-- What is read of an action whose type is not that of a call. -/
def Action.Plain : Action → Prop
  | .plugin _ => False
  | .loadContext _ _ default => default ≠ some .null
  | _ => True

theorem Action.Plain.legal {iterates : Bool} {action : Action} (h : action.Plain)
    (hc : action.isControl = true → iterates = false) : action.Legal iterates where
  control := hc
  plugin := by
    rintro call rfl
    exact h.elim
  default := by
    rintro path destination rfl
    exact h rfl

theorem Action.ofTable_legal {step type : String} {iterates : Bool} {t : Table Json}
    {action : Action} (h : ofTable step type iterates t = .ok action)
    (hc : action.isControl = true → iterates = false) : action.Legal iterates := by
  have read {r : Record Action} (h : (r.ofTable t).mapError (ReadError.badStep step) = .ok action)
      (hr : r.Gives Plain) : action.Legal iterates :=
    (hr.of_ofTable (ok_of_mapError h)).legal hc
  unfold ofTable at h
  split at h
  case h_1 =>
    obtain ⟨call, -, h⟩ := ok_of_bind h
    split at h
    · cases h
    · rename_i hp
      cases h
      refine ⟨hc, fun _ heq => ?_, nofun⟩
      cases heq
      cases hcall : call.plugin <;> simp_all
  case h_2 => exact read h (.map (.of_all fun _ => trivial))
  case h_5 => exact read h (.seq_with (.seq (.map (.of_all fun _ _ _ hd => hd))) (.optional_any _))
  case h_8 =>
    obtain ⟨_, -, h⟩ := ok_of_bind h
    cases h
    exact Plain.legal trivial hc
  case h_9 | h_10 =>
    cases h
    exact Plain.legal trivial hc
  case h_11 => cases h
  all_goals exact read h (.seq (.map (.of_all fun _ _ => trivial)))

namespace Step

theorem ofMembers_eq {members : List (String × Json)} {items : List Json}
    (h : Table.lookup "steps" members = some (.arr items)) : ofMembers members = ofItems items := by
  induction members with
  | nil => cases h
  | cons e rest ih =>
    obtain ⟨k, v⟩ := e
    rw [Table.lookup] at h
    split at h
    · rename_i hk
      cases h
      rw [ofMembers, if_pos hk.symm]
    · rename_i hk
      cases v with
      | arr items => rw [ofMembers, if_neg (Ne.symm hk), ih h]
      | _ => exact ih h

theorem ofMembers_nil {members : List (String × Json)}
    (h : Table.lookup "steps" members = none) : ofMembers members = .ok [] := by
  induction members with
  | nil => rfl
  | cons e rest ih =>
    obtain ⟨k, v⟩ := e
    rw [Table.lookup] at h
    split at h
    · cases h
    · rename_i hk
      cases v with
      | arr items => rw [ofMembers, if_neg (Ne.symm hk), ih h]
      | _ => exact ih h

theorem shallow_legal {v : Json} {st : Step} (h : shallow v = .ok st) :
    st.action.Legal st.iterate.isSome ∧ st.steps = [] := by
  obtain ⟨common, -, h⟩ := ok_of_bind h
  obtain ⟨action, ha, h⟩ := ok_of_bind h
  split at h
  · cases h
  · rename_i hc
    cases h
    refine ⟨Action.ofTable_legal ha fun hcontrol => ?_, rfl⟩
    cases hi : common.iterate.isSome with
    | false => rfl
    | true => exact absurd (Bool.and_eq_true_iff.mpr ⟨hi, hcontrol⟩) hc

mutual

/-- A step that is read makes sense, since it and the steps inside it are read one by one. -/
theorem ofJson_legal : ∀ {v : Json} {st : Step}, ofJson v = .ok st → st.Legal
  | .obj ⟨members⟩, st, h => by
    obtain ⟨outer, houter, h⟩ := ok_of_bind h
    obtain ⟨steps, hsteps, h⟩ := ok_of_bind h
    cases h
    exact .intro (shallow_legal houter).1 (ofMembers_legal hsteps)
  | .null, st, h | .bool _, st, h | .num _, st, h | .str _, st, h | .arr _, st, h => by
    obtain ⟨ha, hs⟩ := shallow_legal h
    exact .intro ha (hs ▸ nofun)

theorem ofMembers_legal : ∀ {members : List (String × Json)} {steps : List Step},
    ofMembers members = .ok steps → ∀ st ∈ steps, st.Legal
  | [], _, h => by
    cases h
    nofun
  | (k, .arr items) :: rest, _, h => by
    rw [ofMembers] at h
    split at h
    · exact ofItems_legal h
    · exact ofMembers_legal h
  | (k, .null) :: rest, _, h | (k, .bool _) :: rest, _, h | (k, .num _) :: rest, _, h
  | (k, .str _) :: rest, _, h | (k, .obj _) :: rest, _, h =>
    ofMembers_legal (show ofMembers rest = _ from h)

theorem ofItems_legal : ∀ {items : List Json} {steps : List Step},
    ofItems items = .ok steps → ∀ st ∈ steps, st.Legal
  | [], _, h => by
    cases h
    nofun
  | v :: rest, steps, h => by
    obtain ⟨first, hfirst, h⟩ := ok_of_bind h
    obtain ⟨later, hlater, h⟩ := ok_of_bind h
    cases h
    exact List.forall_mem_cons.mpr ⟨ofJson_legal hfirst, ofItems_legal hlater⟩

end

end Step

theorem Pipeline.ofJson_legal {v : Json} {pipeline : Pipeline} (h : ofJson v = .ok pipeline) :
    ∀ st ∈ pipeline.steps, st.Legal := by
  obtain ⟨⟨outer, items⟩, -, h⟩ := ok_of_bind h
  obtain ⟨steps, hsteps, h⟩ := ok_of_bind h
  cases h
  exact Step.ofItems_legal hsteps

/-- Pipelines that are read have new names. -/
theorem Pipeline.ofItems_names {names : List String} {items : List Json}
    {pipelines : List Pipeline} (h : ofItems names items = .ok pipelines) :
    (pipelines.map Pipeline.name).Nodup ∧ ∀ p ∈ pipelines, p.name ∉ names := by
  induction items generalizing names pipelines with
  | nil =>
    cases h
    exact ⟨List.nodup_nil, nofun⟩
  | cons v rest ih =>
    obtain ⟨first, -, h⟩ := ok_of_bind h
    split at h
    · cases h
    · rename_i hnew
      obtain ⟨later, hlater, h⟩ := ok_of_bind h
      cases h
      obtain ⟨hnodup, hnames⟩ := ih hlater
      refine ⟨List.nodup_cons.mpr ⟨fun hm => ?_, hnodup⟩, List.forall_mem_cons.mpr ⟨?_, ?_⟩⟩
      · obtain ⟨p, hp, heq⟩ := List.mem_map.mp hm
        exact hnames p hp (heq ▸ List.mem_cons_self)
      · simpa using hnew
      · exact fun p hp hm => hnames p hp (List.mem_cons_of_mem _ hm)

theorem Pipeline.ofItems_legal {names : List String} {items : List Json}
    {pipelines : List Pipeline} (h : ofItems names items = .ok pipelines) :
    ∀ p ∈ pipelines, ∀ st ∈ p.steps, st.Legal := by
  induction items generalizing names pipelines with
  | nil =>
    cases h
    nofun
  | cons v rest ih =>
    obtain ⟨first, hfirst, h⟩ := ok_of_bind h
    split at h
    · cases h
    · obtain ⟨later, hlater, h⟩ := ok_of_bind h
      cases h
      exact List.forall_mem_cons.mpr ⟨ofJson_legal hfirst, ih hlater⟩

/-- A document that is read has distinct pipelines of legal steps. -/
theorem PipelineDocument.ofJson_legal {v : Json} {d : PipelineDocument} (h : ofJson v = .ok d) :
    (d.pipelines.map Pipeline.name).Nodup ∧ ∀ p ∈ d.pipelines, ∀ st ∈ p.steps, st.Legal := by
  unfold ofJson at h
  split at h
  · obtain ⟨pipelines, hpipelines, h⟩ := ok_of_bind h
    cases h
    exact ⟨(Pipeline.ofItems_names hpipelines).1, Pipeline.ofItems_legal hpipelines⟩
  · cases h

end Workflow
