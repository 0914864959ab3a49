import Workflow.Proofs.Store.Outcome

/-!
# What is done to objects

Objects are deleted and written outside. That leaves the store itself as it is, up to the schema
that a format gets when a payload is written, and its failures are failures of objects.
-/
namespace Workflow
open Attempt
variable {σ α β : Type}

/-- Whether an error comes of objects, or of there being no place for them. -/
def StoreError.OfObjects (e : StoreError) : Prop :=
  e = .unavailable .objects ∨ ∃ cause, e = .object cause

namespace Store
variable {env : Environment σ} {actor : Actor} {s t : Store σ}

/-- The second store is the first one, whatever happened outside. -/
def Elsewhere (s t : Store σ) : Prop := t = { s with outside := t.outside }

instance : Std.Refl (@Elsewhere σ) where
  refl _ := rfl

instance : IsTrans (Store σ) Elsewhere where
  trans _ _ _ h k := by
    unfold Elsewhere at *
    rw [k, h]

namespace Elsewhere

theorem data (h : Elsewhere s t) : t.data = s.data := by rw [h]

theorem history (h : Elsewhere s t) : t.history = s.history := by rw [h]

end Elsewhere

theorem onOutside_elsewhere {a : StateM σ α} {r : Except StoreError α}
    (h : onOutside a s = (r, t)) : Elsewhere s t := by
  rw [onOutside_apply] at h
  cases h
  rfl

theorem storedSpaces_elsewhere {b : Backend σ} {ns : Option String}
    {r : Except StoreError (List String)} (h : storedSpaces b ns s = (r, t)) : Elsewhere s t := by
  cases ns with
  | some ns =>
    cases h
    exact refl_of Elsewhere s
  | none => exact onOutside_elsewhere h

theorem deleteObjects_elsewhere (o : ObjectStore σ) (paths : List StorePath) :
    Meets Elsewhere (fun _ => True) StoreError.OfObjects (deleteObjects o paths) := by
  induction paths with
  | nil => exact .pure trivial
  | cons path paths ih =>
    have hdelete : Meets Elsewhere (fun _ => True) StoreError.OfObjects
        (tryOutside .object (o.delete path.ns path.key)) := by
      refine ⟨fun _ => rfl, fun _ _ _ => trivial, fun s e he => ?_⟩
      rw [tryOutside_apply] at he
      obtain ⟨cause, rfl⟩ := exists_of_mapError he
      exact .inr ⟨cause, rfl⟩
    exact hdelete.bind fun _ _ => ih

theorem dropObjects_elsewhere (env : Environment σ) (paths : List StorePath) :
    Meets Elsewhere (fun _ => True) StoreError.OfObjects (dropObjects env paths) := by
  unfold dropObjects objects
  split
  · refine Meets.bind (Q := fun _ => True) ?_ fun o _ => deleteObjects_elsewhere o paths
    split
    · exact .pure trivial
    · exact .throw (.inl rfl)
  · exact .pure trivial

theorem dropped_elsewhere {paths : List StorePath} {r : Except StoreError Unit}
    (h : dropObjects env paths s = (r, t)) : Elsewhere s t := by
  have hchanges := (dropObjects_elsewhere env paths).changes s
  rwa [h] at hchanges

/-- A replaced value that the new one does not stand for is dropped, and else nothing happens. -/
theorem release_cases (env : Environment σ) (old : Option Json) (new : Json) (s : Store σ) :
    (old.bind Descriptor.referenceOf = none ∨
        Descriptor.referenceOf new = old.bind Descriptor.referenceOf) ∧
        (release env old new s).2 = s ∨
      ∃ path, old.bind Descriptor.referenceOf = some path ∧
        Descriptor.referenceOf new ≠ some path ∧
        (release env old new s).2 = (dropObjects env [path] s).2 := by
  unfold release
  cases old.bind Descriptor.referenceOf with
  | none => exact .inl ⟨.inl rfl, rfl⟩
  | some path =>
    by_cases h : Descriptor.referenceOf new = some path
    · dsimp only [Option.bind]
      rw [if_pos h]
      exact .inl ⟨.inr h, rfl⟩
    · dsimp only
      rw [if_neg h]
      exact .inr ⟨path, rfl, h, tolerate_apply (dropObjects env [path]) s⟩

theorem release_elsewhere (env : Environment σ) (old : Option Json) (new : Json) (s : Store σ) :
    Elsewhere s (release env old new s).2 := by
  obtain ⟨-, h⟩ | ⟨path, -, -, h⟩ := release_cases env old new s
  · rw [h]
    exact refl_of Elsewhere s
  · rw [h]
    exact (dropObjects_elsewhere env [path]).changes s

theorem releaseAll_elsewhere (env : Environment σ) (conflicts : Table Json)
    (written : List (String × Json)) (s : Store σ) :
    Elsewhere s (releaseAll env conflicts written s).2 := by
  induction written generalizing s with
  | nil => exact refl_of Elsewhere s
  | cons e written ih => exact trans_of Elsewhere (release_elsewhere env _ _ s) (ih _)

@[simp] theorem overwrite_data (env : Environment σ) (ns key : String) (v : Json) (s : Store σ) :
    (s.overwrite env ns key v).data = s.data.write s.now ns key v :=
  (release_elsewhere env _ v _).data

@[simp] theorem overwrite_history (env : Environment σ) (ns key : String) (v : Json)
    (s : Store σ) : (s.overwrite env ns key v).history = s.history :=
  (release_elsewhere env _ v _).history

@[simp] theorem mergeIn_data (env : Environment σ) (ns : String) (values : Table Json)
    (strategy : MergeStrategy) (s : Store σ) :
    (s.mergeIn env ns values strategy).data = (s.data.merge s.now ns values strategy).data :=
  (releaseAll_elsewhere env _ _ _).data

@[simp] theorem mergeIn_history (env : Environment σ) (ns : String) (values : Table Json)
    (strategy : MergeStrategy) (s : Store σ) :
    (s.mergeIn env ns values strategy).history = s.history :=
  (releaseAll_elsewhere env _ _ _).history

/-- What comes of writing a payload: it may be refused before it is written; one that ends before
the threshold is kept in its descriptor, and a longer one is given to the place for objects, what
was read of it before the rest, which may fail. -/
inductive Writes (env : Environment σ) (ns key : String) (source : Source)
    (metadata : BinaryMetadata) (s : Store σ) : Except StoreError Written → Store σ → Prop
  | refused {e schemas} : Writes env ns key source metadata s (.error e) { s with schemas }
  | inline {head rest schemas} : source.takeUpTo env.inlineThreshold = .ok (head, rest) →
      head.length < env.inlineThreshold →
      Writes env ns key source metadata s
        (.ok ⟨.ofInline (Base64.encodeText head) metadata, head.length⟩) { s with schemas }
  | referenced {head rest o size x schemas} :
      source.takeUpTo env.inlineThreshold = .ok (head, rest) →
      ¬head.length < env.inlineThreshold → o ∈ env.objects →
      o.save ns key (.piece head :: rest) s.outside = (.ok size, x) →
      Writes env ns key source metadata s (.ok ⟨.ofReference ⟨ns, key⟩ metadata, size⟩)
        { s with schemas, outside := x }
  | broken {o stream cause x schemas} : o ∈ env.objects →
      o.save ns key stream s.outside = (.error cause, x) →
      Writes env ns key source metadata s (.error (.object cause))
        { s with schemas, outside := x }

namespace Writes
variable {ns key : String} {source : Source} {metadata : BinaryMetadata}
  {r : Except StoreError Written}

theorem data (h : Writes env ns key source metadata s r t) : t.data = s.data := by
  cases h <;> rfl

theorem history (h : Writes env ns key source metadata s r t) : t.history = s.history := by
  cases h <;> rfl

end Writes

theorem writePayload_cases {ns key : String} {source : Source} {metadata : BinaryMetadata}
    {r : Except StoreError Written} (h : writePayload env ns key source metadata s = (r, t)) :
    Writes env ns key source metadata s r t := by
  obtain ⟨e, hl, rfl⟩ | ⟨⟨head, rest⟩, u, hl, h⟩ := bind_cases h
  · obtain ⟨-, rfl⟩ := Prod.mk.inj hl
    exact .refused
  obtain ⟨hread, rfl⟩ := Prod.mk.inj hl
  have htake : source.takeUpTo env.inlineThreshold = .ok (head, rest) := by
    cases ht : source.takeUpTo env.inlineThreshold <;> rw [ht] at hread <;> cases hread
    rfl
  obtain ⟨e, ha, rfl⟩ | ⟨⟨⟩, u, ha, h⟩ := bind_cases h
  · obtain ⟨-, -, -, rfl⟩ | ⟨_, -, hr⟩ := alter_cases ha
    · exact .refused
    · cases hr
  obtain ⟨schemas, rfl⟩ : ∃ schemas, u = { s with schemas } := by
    obtain ⟨_, -, hr, -⟩ | ⟨_, hf, -⟩ := alter_cases ha
    · cases hr
    · cases hreg : s.schemas.registerBinary metadata.format with
      | ok schemas =>
        rw [hreg] at hf
        cases hf
        exact ⟨schemas, rfl⟩
      | error e =>
        rw [hreg] at hf
        cases hf
  obtain ⟨e, hl, rfl⟩ | ⟨_, u, hl, h⟩ := bind_cases h
  · obtain ⟨-, rfl⟩ := Prod.mk.inj hl
    exact .refused
  obtain ⟨-, rfl⟩ := Prod.mk.inj hl
  by_cases hinline : head.length < env.inlineThreshold
  · simp only [hinline, if_true] at h
    cases h
    exact .inline htake hinline
  · simp only [hinline, if_false] at h
    obtain ⟨e, ho, rfl⟩ | ⟨o, u, ho, h⟩ := bind_cases h
    · obtain ⟨rfl, -⟩ := objects_cases ho
      exact .refused
    obtain ⟨rfl, hmem⟩ := objects_cases ho
    rw [bind_apply, tryOutside_apply] at h
    rcases hsave : o.save ns key (.piece head :: rest) s.outside with ⟨cause | size, x⟩
    · rw [hsave] at h
      cases h
      exact .broken (hmem o rfl) hsave
    · rw [hsave] at h
      cases h
      exact .referenced htake hinline (hmem o rfl) hsave

end Store
end Workflow
