import Workflow.Proofs.Expression.Scan
import Workflow.Proofs.Run.Reach
import Workflow.Proofs.Store.Objects

/-!
# What is saved from the live context

A step that saves from the live context names its value by keys with dots between them. The name is
completed to an expression, so it means what its keys lead to only as long as each of the keys is
written like a word: every other character has a meaning of its own in an expression.
-/
namespace Workflow
open Attempt
variable {σ π : Type}

/-- The keys that a source names: it is cut at its dots, but the root of the live context at its
beginning is left out. -/
def sourceKeys (source : String) : List String :=
  let root := (Expression.contextRoot ++ ".").toList
  let rest := if root.isPrefixOf source.toList then source.toList.drop root.length
    else source.toList
  (rest.splitOn '.').map String.ofList

namespace Expression

/-- Keys that a text is cut into are written as the text again. -/
theorem keysText_splitOn (cs : List Char) :
    keysText ((cs.splitOn '.').map String.ofList) = '.' :: cs := by
  have written (pieces : List (List Char)) (hne : pieces ≠ []) :
      keysText (pieces.map String.ofList) = '.' :: ['.'].intercalate pieces := by
    induction pieces with
    | nil => exact absurd rfl hne
    | cons piece pieces ih =>
      cases pieces with
      | nil => simp [keysText]
      | cons next pieces =>
        have htail := ih (List.cons_ne_nil next pieces)
        rw [List.intercalate_cons_cons, List.append_assoc, List.singleton_append, ← htail]
        simp [keysText]
  rw [written _ (List.splitOn_ne_nil '.' cs), List.intercalate_splitOn]

end Expression

open Expression in
/-- The expression for a source is the path of its keys. -/
theorem sourceExpression_eq (source : String) :
    Program.sourceExpression source = pathText (sourceKeys source) := by
  apply String.toList_injective
  rw [pathText_toList, sourceKeys, keysText_splitOn, Program.sourceExpression]
  split
  · rename_i h
    obtain ⟨rest, hrest⟩ := List.isPrefixOf_iff_prefix.mp h
    rw [← hrest, List.drop_left]
    simp
  · simp

namespace Store
variable {σ : Type} {env : Environment σ} {actor : Actor} {ns key : String} {v : Json}
  {s t : Store σ}

/-- A key that is set has its new value. -/
theorem set_stores {done : Bool} (h : set env actor ns key v .default s = (.ok done, t)) :
    t.data.value? ns key = some v := by
  obtain ⟨e, he, -⟩ | h := (authorize_gate _ _ _).bind_cases h
  · cases he
  obtain ⟨e, he, -⟩ | h := (checkValue_gate _ _ _).bind_cases h
  · cases he
  rw [get_bind] at h
  split at h
  · rename_i hkept
    simp [SetOptions.default] at hkept
  · rw [modify_bind, lift_bind] at h
    obtain ⟨-, hn⟩ := logged h fun _ => rfl
    rw [hn.data]
    exact (congrArg (StoreData.value? · ns key) (overwrite_data env ns key v s)).trans
      (StoreData.value?_write_self _ _ _ _ _)

theorem set_of_may (h : actor.May s.permissions (StorePath.mk ns key).resource .write) :
    ∃ t, set env actor ns key v .default s = (.ok true, t) := by
  have hchecked : checkValue env actor (StorePath.mk ns key).resource v SetOptions.default.schema =
      pure ⟨⟩ := rfl
  have hover : ¬((s.data.value? ns key).isSome && !SetOptions.default.overwrite) = true := by
    simp [SetOptions.default]
  rw [set, bind_of_ok (authorize_of_may h), hchecked, pure_bind, get_bind, if_neg hover,
    modify_bind, lift_bind, lift_bind]
  exact ⟨_, rfl⟩

end Store

namespace Program
open Expression
variable {σ π : Type} {p : Program σ π} {step source path : String} {s : RunState σ π}

/-- A source whose keys are written like words has the value that its keys lead to. -/
theorem evaluate_source (hkeys : ∀ key ∈ sourceKeys source, IsSegment key) :
    evaluate step (sourceExpression source) s =
      (((Json.obj s.context).walk? (sourceKeys source)).elim
        (.error (.expression step (.missingKey (pathText (sourceKeys source))))) .ok, s) := by
  rw [evaluate_apply, sourceExpression_eq, evaluate_keys hkeys, lookup]
  cases (Json.obj s.context).walk? (sourceKeys source) <;> rfl

theorem onStore_apply {α : Type} (a : StoreAction σ α) :
    onStore step a s =
      ((a s.store).1.mapError (.store step), { s.note .stored with store := (a s.store).2 }) := rfl

/-- What is saved from the live context is what the source names, and it is saved where the path
leads to. -/
theorem perform_saveContext (hkeys : ∀ key ∈ sourceKeys source, IsSegment key) {q : StorePath}
    (hq : StorePath.parse? path = some q) {v : Json}
    (hv : (Json.obj s.context).walk? (sourceKeys source) = some v) :
    p.perform step (.saveContext source path) s =
      (((Store.set p.environment p.actor q.ns q.key v .default s.store).1.mapError
        (.store step)).map fun _ => .proceed, { s.note .stored with
          store := (Store.set p.environment p.actor q.ns q.key v .default s.store).2 }) := by
  rw [perform, bind_apply, storePath, hq]
  dsimp only [Attempt.look]
  rw [bind_apply, evaluate_source hkeys, hv]
  dsimp only [Option.elim]
  rw [bind_apply, setValue, bind_apply, onStore_apply]
  rcases Store.set p.environment p.actor q.ns q.key v .default s.store with ⟨_ | _, store⟩ <;> rfl

/-- Nothing is saved without a path and a value that the source names. -/
theorem perform_saveContext_ok (hkeys : ∀ key ∈ sourceKeys source, IsSegment key) {o : Outcome}
    {t : RunState σ π} (h : p.perform step (.saveContext source path) s = (.ok o, t)) :
    ∃ q v, StorePath.parse? path = some q ∧
      (Json.obj s.context).walk? (sourceKeys source) = some v := by
  rw [perform, bind_apply, storePath] at h
  cases hq : StorePath.parse? path with
  | none =>
    rw [hq] at h
    cases h
  | some q =>
    rw [hq] at h
    dsimp only [Attempt.look] at h
    rw [bind_apply, evaluate_source hkeys] at h
    cases hv : (Json.obj s.context).walk? (sourceKeys source) with
    | none =>
      rw [hv] at h
      cases h
    | some v => exact ⟨q, v, rfl, rfl⟩

end Program

open Expression in
/-- A step that saves from the live context, and whose source has keys that are written like words,
succeeds only if the keys lead to a value in the live context, and then this is the value that it
stores. If the keys lead to a value, the step sets the key of its path to just this value, and it
stores it if the actor may write there. -/
theorem save_context_stores {p : Program σ π} {step source path : String}
    (hkeys : ∀ key ∈ sourceKeys source, IsSegment key) (s : RunState σ π) :
    (∀ o t, p.perform step (.saveContext source path) s = (.ok o, t) →
      ∃ q v, StorePath.parse? path = some q ∧
        (Json.obj s.context).walk? (sourceKeys source) = some v ∧
        t.store.data.value? q.ns q.key = some v) ∧
    ∀ q v, StorePath.parse? path = some q →
      (Json.obj s.context).walk? (sourceKeys source) = some v →
      (∃ r store, Store.set p.environment p.actor q.ns q.key v .default s.store = (r, store) ∧
        p.perform step (.saveContext source path) s =
          ((r.mapError (.store step)).map fun _ => .proceed, { s.note .stored with store })) ∧
      (p.actor.May s.store.permissions q.resource .write →
        ∃ t, p.perform step (.saveContext source path) s = (.ok .proceed, t) ∧
          t.store.data.value? q.ns q.key = some v) := by
  refine ⟨fun o t h => ?_, fun q v hq hv => ⟨?_, fun hmay => ?_⟩⟩
  · obtain ⟨q, v, hq, hv⟩ := Program.perform_saveContext_ok hkeys h
    refine ⟨q, v, hq, hv, ?_⟩
    rw [Program.perform_saveContext hkeys hq hv] at h
    rcases hset : Store.set p.environment p.actor q.ns q.key v .default s.store with ⟨_ | _, u⟩ <;>
      rw [hset] at h <;> cases h
    exact Store.set_stores hset
  · exact ⟨_, _, rfl, Program.perform_saveContext hkeys hq hv⟩
  · obtain ⟨u, hset⟩ : ∃ u, Store.set p.environment p.actor q.ns q.key v .default s.store =
        (.ok true, u) := Store.set_of_may hmay
    rw [Program.perform_saveContext hkeys hq hv, hset]
    exact ⟨_, rfl, Store.set_stores hset⟩

/-- A value inside an object. -/
theorem save_context_stores_inside :
    let p := Program.bare .default (.bare "main" [])
    let s := (Engine.bare ⟨[("seed", .mkObj [("value", .nat 7)])]⟩).beginRun (.bare "main" [])
    (∀ key ∈ sourceKeys "context.seed.value", Expression.IsSegment key) ∧
      ∃ t, p.perform "save" (.saveContext "context.seed.value" "jobs.seed") s =
          (.ok .proceed, t) ∧ t.store.data.value? "jobs" "seed" = some (.nat 7) := by
  intro p s
  have hkeys : ∀ key ∈ sourceKeys "context.seed.value", Expression.IsSegment key := by
    rw [show sourceKeys "context.seed.value" = ["seed", "value"] by decide]
    simp only [List.mem_cons, List.not_mem_nil, or_false, forall_eq_or_imp, forall_eq]
    exact ⟨⟨by decide, List.all_eq_true.mp (by decide)⟩,
      ⟨by decide, List.all_eq_true.mp (by decide)⟩⟩
  have hwalk : (Json.obj s.context).walk? (sourceKeys "context.seed.value") = some (.nat 7) := rfl
  have hpath : StorePath.parse? "jobs.seed" = some ⟨"jobs", "seed"⟩ := by decide
  exact ⟨hkeys, ((save_context_stores hkeys s).2 _ _ hpath hwalk).2 (.inl rfl)⟩

end Workflow
