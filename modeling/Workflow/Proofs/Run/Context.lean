import Workflow.Proofs.Table
import Workflow.Run.State
import Mathlib.Order.Defs.Unbundled

/-!
# What is written to the live context

The live context binds a key to what has been written to it last. This is told by the writes of the
run for the keys of a kind, since a loop takes the writes to its own key back.
-/
namespace Workflow.RunState
variable {σ π : Type}

/-- What a run has written in between shows in the live context, at the keys of a kind. -/
structure Tracks (P : String → Prop) (s t : RunState σ π) : Prop where
  writes : ∃ new, t.writes = new ++ s.writes ∧
    ∀ k, P k → t.context.get? k = (Table.lookup k new).or (s.context.get? k)
  sorted : s.context.Sorted → t.context.Sorted

namespace Tracks
variable {P Q : String → Prop} {s t : RunState σ π}

/-- What leaves the live context and the writes alone. -/
theorem of_eq (hc : t.context = s.context) (hw : t.writes = s.writes) : Tracks P s t :=
  ⟨⟨[], hw, fun _ _ => congrArg (Table.get? · _) hc⟩, fun hs => hc ▸ hs⟩

/-- A change before it that leaves the live context and the writes alone does not matter. -/
theorem after {u : RunState σ π} (h : Tracks P t u) (hc : t.context = s.context)
    (hw : t.writes = s.writes) : Tracks P s u := by
  obtain ⟨new, hu, hn⟩ := h.writes
  exact ⟨⟨new, hw ▸ hu, fun k hk => hc ▸ hn k hk⟩, fun hs => h.sorted (hc ▸ hs)⟩

instance : Std.Refl (Tracks P (σ := σ) (π := π)) where
  refl _ := of_eq rfl rfl

instance : IsTrans (RunState σ π) (Tracks P) where
  trans _ _ _ h k := by
    obtain ⟨new, hw, hn⟩ := h.writes
    obtain ⟨newer, kw, kn⟩ := k.writes
    refine ⟨⟨newer ++ new, by rw [kw, hw, List.append_assoc], fun key hkey => ?_⟩,
      fun hs => k.sorted (h.sorted hs)⟩
    rw [kn key hkey, hn key hkey, Table.lookup_append, Option.or_assoc]

theorem mono (h : Tracks P s t) (hq : ∀ k, Q k → P k) : Tracks Q s t := by
  obtain ⟨new, hw, hn⟩ := h.writes
  exact ⟨⟨new, hw, fun k hk => hn k (hq k hk)⟩, h.sorted⟩

theorem bind (s : RunState σ π) (key : String) (v : Json) : Tracks P s (s.bind key v) := by
  refine ⟨⟨[(key, v)], rfl, fun k _ => ?_⟩, fun hs => hs.insert key v⟩
  refine (Table.get?_insert _ _ _ _).trans ?_
  rw [Table.lookup]
  split <;> rfl

theorem bindAll (s : RunState σ π) (values : Table Json) : Tracks P s (s.bindAll values) :=
  ⟨⟨values.entries.reverse, rfl, fun k _ => Table.get?_insertAll _ _ k⟩,
    fun hs => hs.insertAll values.entries⟩

end Tracks
end Workflow.RunState
