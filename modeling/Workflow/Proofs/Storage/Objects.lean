import Workflow.Proofs.Attempt
import Workflow.Proofs.Table
import Workflow.Storage.Objects
import Workflow.Store.Path

/-!
# What concerns an object

What can be told of an object changes only by what is done to its place, and then only if that is a
write that succeeds or a deletion. Different paths may mean the same place.
-/
namespace Workflow
open Attempt
variable {σ α β γ : Type}

/-- What is looked at concerns a place that some paths mean: it is changed by deleting there and by
writing there with success, and by nothing else. -/
structure ObjectStore.OnlyAt (o : ObjectStore σ) (P : StorePath → Prop) (view : σ → β) : Prop where
  openSource : ∀ ns key x, view (o.openSource ns key x).2 = view x
  delete : ∀ ns key x, ¬P ⟨ns, key⟩ → view (o.delete ns key x).2 = view x
  save : ∀ ns key source x, (P ⟨ns, key⟩ → ∃ e, (o.save ns key source x).1 = .error e) →
    view (o.save ns key source x).2 = view x

theorem ObjectStore.OnlyAt.map {o : ObjectStore σ} {P : StorePath → Prop} {view : σ → β}
    (h : o.OnlyAt P view) (f : β → γ) : o.OnlyAt P fun x => f (view x) where
  openSource ns key x := congrArg f (h.openSource ns key x)
  delete ns key x hp := congrArg f (h.delete ns key x hp)
  save ns key source x hp := congrArg f (h.save ns key source x hp)

def ObjectStore.bytes (o : ObjectStore σ) (path : StorePath) (x : σ) : Except ObjectError Bytes :=
  (o.load path.ns path.key x).1

/-- A place for objects tells apart all paths, and never fails to delete: then the object is
gone. -/
structure ObjectStore.Reliable (o : ObjectStore σ) : Prop where
  apart : ∀ path : StorePath, o.OnlyAt (· = path) (o.contains path.ns path.key)
  deletes : ∀ ns key x, ∃ found, (o.delete ns key x).1 = .ok found
  deleted : ∀ ns key x, o.contains ns key (o.delete ns key x).2 = false

namespace ObjectStore
namespace Objects
variable (os : Objects) (ns key : String)

theorem find_put (bytes : Bytes) (ns' key' : String) :
    (os.put ns key bytes).find ns' key' =
      if ns' = ns ∧ key' = key then some bytes else os.find ns' key' := by
  rw [find, put, Table.get?_insert]
  by_cases hn : ns' = ns
  · subst hn
    rw [if_pos rfl, Option.bind_some, Table.get?_insert]
    by_cases hk : key' = key
    · simp [hk]
    · rw [if_neg hk, if_neg fun h => hk h.2, find]
      cases os.get? ns' <;> rfl
  · rw [if_neg hn, if_neg fun h => hn h.1, find]

theorem find_remove (ns' key' : String) :
    (os.remove ns key).find ns' key' =
      if ns' = ns ∧ key' = key then none else os.find ns' key' := by
  unfold remove
  split
  · rename_i t ht
    rw [find, Table.get?_insert]
    by_cases hn : ns' = ns
    · subst hn
      rw [if_pos rfl, Option.bind_some, Table.get?_erase, find, ht, Option.bind_some]
      by_cases hk : key' = key <;> simp [hk]
    · rw [if_neg hn, if_neg fun h => hn h.1, find]
  · rename_i hnone
    by_cases h : ns' = ns ∧ key' = key
    · rw [if_pos h, find, h.1, hnone, Option.bind_none]
    · rw [if_neg h]

end Objects

theorem memory_find (path : StorePath) :
    memory.OnlyAt (· = path) fun os => Objects.find os path.ns path.key where
  openSource _ _ _ := rfl
  delete ns key os hne := by
    have hplace : ¬(path.ns = ns ∧ path.key = key) := by
      rintro ⟨rfl, rfl⟩
      exact hne rfl
    exact (Objects.find_remove os ns key path.ns path.key).trans (if_neg hplace)
  save ns key source os hsave := by
    cases hdrain : source.drain with
    | error cause => simp [memory, Attempt.alter, hdrain, Except.mapError, Except.map]
    | ok bytes =>
      have hplace : ¬(path.ns = ns ∧ path.key = key) := by
        rintro ⟨rfl, rfl⟩
        obtain ⟨e, he⟩ := hsave rfl
        simp [memory, Attempt.alter, hdrain, Except.mapError, Except.map] at he
      have hput := Objects.find_put os ns key bytes path.ns path.key
      simpa [memory, Attempt.alter, hdrain, Except.mapError, Except.map, hplace] using hput

theorem memory_reliable : memory.Reliable where
  apart path := (memory_find path).map Option.isSome
  deletes _ _ _ := ⟨_, rfl⟩
  deleted ns key os := by
    have hremove := Objects.find_remove os ns key ns key
    simpa [memory, Attempt.alter] using congrArg Option.isSome hremove

theorem memory_bytes (path : StorePath) (os : Objects) :
    memory.bytes path os =
      (os.find path.ns path.key).elim (.error (.notFound path.ns path.key)) .ok := by
  simp only [bytes, load, bind_apply, memory, Attempt.look]
  cases os.find path.ns path.key with
  | none => rfl
  | some bytes => simp [Source.ofBytes, Source.drain, Except.map, Except.mapError]

theorem memory_apart (path : StorePath) : memory.OnlyAt (· = path) (memory.bytes path) := by
  have hbytes := funext (memory_bytes path)
  rw [hbytes]
  exact (memory_find path).map
    (Option.elim · (Except.error (ObjectError.notFound path.ns path.key)) Except.ok)

end ObjectStore
end Workflow
