import Workflow.Proofs.Run.Reach

/-!
# The live context around a loop

An iteration has its item in the live context. What else it writes there is kept, even if it fails,
but the key of the item is given back. So a loop leaves this key as it has found it, whatever its
action, the steps inside it and the loops among them have put there, and every other key binds what
has been written to it last.
-/
namespace Workflow
open Program
variable {σ π : Type}

theorem Program.get?_leaveIteration {inner : Table Json} (h : inner.Sorted) (outer : Table Json)
    (k : String) :
    (leaveIteration outer inner).get? k =
      (if k = itemKey then none else inner.get? k).or (outer.get? k) := by
  rw [leaveIteration, h.get?_union_filter fun key => key != itemKey]
  by_cases hk : k = itemKey
  · simp [hk]
  · simp [hk]

namespace RunState

@[simp] theorem settle_context (s : RunState σ π) : s.settle.context = s.context := by
  unfold settle
  split <;> rfl

@[simp] theorem settle_writes (s : RunState σ π) : s.settle.writes = s.writes := by
  unfold settle
  split <;> rfl

/-- What a loop does to the live context: it gives its key back, and what has been written to the
others shows. -/
structure Scoped (s t : RunState σ π) : Prop extends Tracks (· ≠ itemKey) s t where
  item : t.context.get? itemKey = s.context.get? itemKey

namespace Scoped
variable {s t u : RunState σ π}

theorem of_eq (hc : t.context = s.context) (hw : t.writes = s.writes) : Scoped s t :=
  ⟨.of_eq hc hw, congrArg (Table.get? · itemKey) hc⟩

theorem trans (h : Scoped s t) (k : Scoped t u) : Scoped s u :=
  ⟨trans_of (Tracks _) h.toTracks k.toTracks, k.item.trans h.item⟩

/-- An iteration, whatever its body writes. -/
theorem turn (hs : s.context.Sorted) {way : List Nat} {k : Nat} {item : Json}
    (h : Tracks (· ≠ itemKey) (s.beginTurn way k item) t) (status : Status) :
    Scoped s (t.endTurn way k status s.context) := by
  have ht : t.context.Sorted := h.sorted (hs.insert itemKey item)
  obtain ⟨new, hw, hn⟩ := h.writes
  -- The item itself has been written first, which no other key shows.
  refine ⟨⟨⟨new ++ [(itemKey, item)], ?_, fun key hkey => ?_⟩, fun _ => hs.insertAll _⟩, ?_⟩
  · exact hw.trans (List.append_assoc new [(itemKey, item)] s.writes).symm
  · have hbegin : (s.beginTurn way k item).context.get? key = s.context.get? key :=
      Table.get?_insert_of_ne _ hkey item
    refine (get?_leaveIteration ht s.context key).trans ?_
    rw [if_neg hkey, hn key hkey, hbegin, Table.lookup_append, Option.or_assoc]
    cases Table.lookup key new <;> simp [Table.lookup, hkey]
  · refine (get?_leaveIteration ht s.context itemKey).trans ?_
    rw [if_pos rfl]
    rfl

end Scoped
end RunState

def Call.Scopes : Call → RunState σ π → RunState σ π → Prop
  | .loop .. | .turns .. => RunState.Scoped
  | _ => RunState.Tracks (· ≠ itemKey)

namespace Runs
open RunState
variable {p : Program σ π} {c : Call} {s t : RunState σ π}
  {r : Except RunError (Option String)}

theorem scopes (h : Runs p c s r t) (hs : s.context.Sorted) : c.Scopes s t := by
  have join {s t u : RunState σ π} (h : Tracks (· ≠ itemKey) s t)
      (k : Tracks (· ≠ itemKey) t u) : Tracks (· ≠ itemKey) s u := trans_of (Tracks _) h k
  -- Key order is carried along, since what an iteration gives back is merged key by key.
  induction h with
  | block _ ih => exact (ih hs).after rfl rfl
  | finished _ => exact .of_eq rfl rfl
  | skipped _ _ => exact .of_eq rfl rfl
  | failed _ _ _ ih => exact ih hs
  | next _ _ _ _ ih ih' => exact join (ih hs) (ih' ((ih hs).sorted hs))
  | lost _ _ _ _ ih => exact ih hs
  | stopped _ _ _ _ _ ih => exact join (ih hs) (.of_eq rfl rfl)
  | jump _ _ _ _ _ _ ih ih' =>
    exact join (ih hs) ((ih' ((ih hs).sorted hs)).after rfl rfl)
  | once _ _ ih => exact join ((ih hs).after rfl rfl) (.of_eq rfl rfl)
  | each _ _ ih => exact join ((ih hs).toTracks.after rfl rfl) (.of_eq rfl rfl)
  | refused h => exact perform_tracks h _
  | alone h _ => exact perform_tracks h _
  | inside h _ _ _ ih =>
    have hp := perform_tracks h (· ≠ itemKey)
    exact join hp (ih (hp.sorted hs))
  | broken h _ _ _ ih =>
    have hp := perform_tracks h (· ≠ itemKey)
    exact join hp (ih (hp.sorted hs))
  | unread _ => exact Scoped.of_eq rfl rfl
  | noList _ _ => exact Scoped.of_eq rfl rfl
  | empty _ => exact Scoped.of_eq rfl rfl
  | list _ _ _ ih => exact ⟨join ((ih hs).toTracks.after rfl rfl) (.of_eq rfl rfl), (ih hs).item⟩
  | ended _ => exact Scoped.of_eq rfl rfl
  | torn _ _ ih => exact .turn hs (ih (hs.insert itemKey _)) _
  | left _ _ _ ih =>
    have hturn := Scoped.turn hs (ih (hs.insert itemKey _)) .completed
    exact hturn.trans (.of_eq (settle_context _) (settle_writes _))
  | turn _ _ _ _ ih ih' =>
    have hturn := Scoped.turn hs (ih (hs.insert itemKey _)) .completed
    have hnext := hturn.trans (u := RunState.advance _)
      (.of_eq (settle_context _) (settle_writes _))
    exact hnext.trans (ih' (hnext.sorted hs))

theorem sorted (h : Runs p c s r t) (hs : s.context.Sorted) : t.context.Sorted := by
  have hc := h.scopes hs
  cases c with
  | loop | turns => exact hc.toTracks.sorted hs
  | _ => exact hc.sorted hs

end Runs

theorem Reaches.sorted {p : Program σ π} {pipeline : Pipeline} {e : Engine σ π} {c : Call}
    {s : RunState σ π} (h : Reaches p pipeline e c s) (he : e.context.Sorted) :
    s.context.Sorted := by
  refine h.induct (P := fun _ t => t.context.Sorted) he fun c s d t hs hm => ?_
  cases hm with
  | next _ _ h => exact h.sorted hs
  | jump _ _ h => exact h.sorted hs
  | inside h => exact (perform_tracks h (fun _ => True)).sorted hs
  | item => exact hs.insert itemKey _
  | turn _ h =>
    rw [RunState.advance, RunState.settle_context]
    exact hs.insertAll _
  | _ => exact hs

/-- A loop, wherever it stands and however it ends, leaves the enclosing loops as they are and the
key of the items bound as before. Every other key binds the last value that has been written to it
since the loop began, and else what it has bound before. -/
theorem loop_scope {p : Program σ π} {pipeline : Pipeline} {e : Engine σ π}
    (he : e.context.Sorted) {step : Step} {expression : String} {way : List Nat}
    {s : RunState σ π} (h : Reaches p pipeline e (.loop step expression way) s) :
    ∃ r t new, p.call (.loop step expression way) s = (r, t) ∧ t.frames = s.frames ∧
      t.writes = new ++ s.writes ∧
      t.context.get? itemKey = s.context.get? itemKey ∧
      ∀ k, k ≠ itemKey →
        ((s.context.get? k).isSome → (t.context.get? k).isSome) ∧
          t.context.get? k = (Table.lookup k new).or (s.context.get? k) := by
  obtain ⟨r, t, hcall⟩ : ∃ r t, p.call (.loop step expression way) s = (r, t) := ⟨_, _, rfl⟩
  have hruns := Runs.of_call _ _ _ _ hcall
  have hscoped : RunState.Scoped s t := hruns.scopes (h.sorted he)
  obtain ⟨new, hw, hn⟩ := hscoped.writes
  refine ⟨r, t, new, hcall, hruns.keeps, hw, hscoped.item, fun k hk => ⟨fun hs => ?_, hn k hk⟩⟩
  rw [hn k hk]
  cases Table.lookup k new with
  | some v => rfl
  | none => exact hs

/-- A loop inside a loop, where a key of the same name has been bound before. -/
theorem loop_scope_nested :
    let inner := Step.bare "inner" (some "context.xs") .idle [.bare "leave" none .leaveLoop []]
    let outer := Step.bare "outer" (some "context.xs") .idle [inner]
    let p := Program.bare .default (.bare "main" [outer])
    let e := Engine.bare ⟨[("item", .bool false), ("xs", .arr [.null, .bool true])]⟩
    let s := ((e.beginRun (.bare "main" [outer])).note (.entered [])).begin [0]
    ∃ r t new, p.call (.loop outer "context.xs" [0]) s = (r, t) ∧
      t.context.get? itemKey = some (.bool false) ∧
      t.context.get? "xs" = (Table.lookup "xs" new).or (some (.arr [.null, .bool true])) := by
  intro inner outer p e s
  have he : e.context.Sorted := by
    refine List.pairwise_pair.mpr ?_
    decide
  have hs : Reaches p (.bare "main" [outer]) e (.loop outer "context.xs" [0]) s :=
    .tail (.tail (.single .block) (.step rfl rfl)) (.each rfl)
  obtain ⟨r, t, new, hcall, -, -, hitem, hothers⟩ := loop_scope he hs
  exact ⟨r, t, new, hcall, hitem, (hothers "xs" (by decide)).2⟩

end Workflow
