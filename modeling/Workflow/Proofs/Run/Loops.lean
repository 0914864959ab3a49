import Workflow.Proofs.Expression.Scan
import Workflow.Proofs.Run.Reach

/-!
# Loops run their items in order

A loop goes through the items of its list as they were when the list was evaluated. It runs its body
once for each of them, up to the first iteration that fails or asks to leave the loop, and its node
records how far every iteration has come.
-/
namespace Workflow
variable {σ π : Type}

/-- The state for an iteration: nothing asks to leave one, and the live context has the item. -/
structure RunState.Ready (item : Json) (s : RunState σ π) : Prop where
  request : s.request = none
  item : s.context.get? Program.itemKey = some item

theorem RunState.beginTurn_ready {s : RunState σ π} (h : s.request = none) (way : List Nat)
    (k : Nat) (item : Json) : (s.beginTurn way k item).Ready item :=
  ⟨h, Table.get?_insert_self _ _ _⟩

/-- The iterations of a step over some items, of which the first has an index: what becomes of each
that is started, how the last of them ends the loop, and in which state. -/
inductive Iterates (p : Program σ π) (step : Step) (way : List Nat) :
    Nat → List Json → RunState σ π → List Status → Except RunError (Option String) →
      RunState σ π → Prop
  | exhausted {k s} : Iterates p step way k [] s [] (.ok none) s
  | failed {k item items s e t} : (s.beginTurn way k item).Ready item →
      p.call (.body step way) (s.beginTurn way k item) = (.error e, t) →
      Iterates p step way k (item :: items) s [.failed] (.error e)
        (t.endTurn way k .failed s.context)
  | left {k item items s v t} : (s.beginTurn way k item).Ready item →
      p.call (.body step way) (s.beginTurn way k item) = (.ok v, t) →
      t.request = some .leaveLoop →
      Iterates p step way k (item :: items) s [.completed] (.ok none)
        (t.endTurn way k .completed s.context).settle
  | next {k item items s v t statuses r u} : (s.beginTurn way k item).Ready item →
      p.call (.body step way) (s.beginTurn way k item) = (.ok v, t) →
      t.request ≠ some .leaveLoop →
      Iterates p step way (k + 1) items (t.endTurn way k .completed s.context).settle.advance
        statuses r u →
      Iterates p step way k (item :: items) s (.completed :: statuses) r u

namespace RunState

def iterations? (way : List Nat) (s : RunState σ π) : Option Iterations :=
  (s.own? way).bind Progress.iterations

theorem iterations?_startLoop {s : RunState σ π} {way : List Nat} {n : Progress}
    (h : s.own? way = some n) (items : List Json) :
    (s.startLoop way items).iterations? way =
      some (.start (items.map Iterations.label)) := by
  rw [iterations?, own?_startLoop, if_pos rfl, h]
  rfl

theorem iterations?_beginTurn (way : List Nat) (k : Nat) (item : Json) (s : RunState σ π) :
    (s.beginTurn way k item).iterations? way =
      (s.iterations? way).map (·.set k .running) := by
  rw [iterations?, own?_beginTurn, if_pos rfl, iterations?]
  cases s.own? way <;> rfl

theorem iterations?_endTurn (way : List Nat) (k : Nat) (status : Status) (outer : Table Json)
    (s : RunState σ π) :
    (s.endTurn way k status outer).iterations? way =
      (s.iterations? way).map (·.set k status) := by
  rw [iterations?, own?_endTurn, if_pos rfl, iterations?]
  cases s.own? way <;> rfl

end RunState

/-- The record of a loop: some iterations have been started, and the others wait. -/
def Iterations.after (started : List Status) (waiting : List Json) (labels : List String) :
    Iterations :=
  ⟨started.length + waiting.length, started ++ List.replicate waiting.length .pending, labels⟩

theorem Iterations.set_after (started : List Status) (item : Json) (waiting : List Json)
    (labels : List String) (first second : Status) :
    ((Iterations.after started (item :: waiting) labels).set started.length first).set
      started.length second = .after (started ++ [second]) waiting labels := by
  simp [after, set, List.replicate_succ, Nat.add_assoc, Nat.add_comm 1]

namespace Runs
open RunState
variable {p : Program σ π} {c : Call} {s t : RunState σ π}
  {r : Except RunError (Option String)}

theorem call_eq (h : Runs p c s r t) : p.call c s = (r, t) := by
  obtain ⟨hr, ht⟩ := (of_call c s _ _ rfl).unique h
  exact Prod.ext hr ht

/-- The body of a loop leaves the record of the loop alone. -/
theorem body_iterations {step : Step} {way : List Nat} (h : Runs p (.body step way) s r t) :
    t.iterations? way = s.iterations? way := by
  rw [iterations?, iterations?, h.spares fun hw => hw.2 rfl]

/-- The turns of a loop are iterations over the items that the innermost loop has left. -/
theorem iterates {step : Step} {way : List Nat} (h : Runs p (.turns step way) s r t)
    {f : LoopFrame} {fs : List LoopFrame} (hf : s.frames = f :: fs) (hq : s.request = none) :
    ∃ statuses, Iterates p step way f.index (f.items.drop f.index) s statuses r t := by
  generalize hc : Call.turns step way = c at h
  induction h generalizing f with
  | ended hn =>
    cases hc
    have : f.items.drop f.index = [] := by
      cases hi : f.items[f.index]? with
      | none => exact List.drop_eq_nil_of_le (List.getElem?_eq_none_iff.mp hi)
      | some item =>
        rw [currentItem?_eq_some_iff.mpr ⟨f, fs, hf, rfl, hi⟩] at hn
        cases hn
    rw [this]
    exact ⟨[], .exhausted⟩
  | torn hi hb =>
    cases hc
    obtain ⟨f', fs', hf', rfl, hi⟩ := currentItem?_eq_some_iff.mp hi
    cases hf.symm.trans hf'
    rw [List.drop_eq_getElem?_toList_append, hi]
    exact ⟨[.failed], .failed (beginTurn_ready hq _ _ _) hb.call_eq⟩
  | left hi hb hl =>
    cases hc
    obtain ⟨f', fs', hf', rfl, hi⟩ := currentItem?_eq_some_iff.mp hi
    cases hf.symm.trans hf'
    rw [List.drop_eq_getElem?_toList_append, hi]
    exact ⟨[.completed], .left (beginTurn_ready hq _ _ _) hb.call_eq hl⟩
  | turn hi hb hl _ _ ih =>
    cases hc
    obtain ⟨f', fs', hf', rfl, hi⟩ := currentItem?_eq_some_iff.mp hi
    cases hf.symm.trans hf'
    rw [List.drop_eq_getElem?_toList_append, hi]
    obtain ⟨statuses, hs⟩ := ih (f := f.move 1) (by
      rw [advance_frames, settle_frames, endTurn_frames, hb.keeps]
      exact congrArg _ hf) (settle_request _) rfl
    exact ⟨.completed :: statuses, .next (beginTurn_ready hq _ _ _) hb.call_eq hl hs⟩
  | _ => cases hc

end Runs

namespace Iterates
open RunState
variable {p : Program σ π} {step : Step} {way : List Nat} {k : Nat} {items : List Json}
  {s t : RunState σ π} {statuses : List Status} {r : Except RunError (Option String)}

/-- One iteration is recorded, whatever its body does. -/
theorem record {item : Json} {started : List Status} {labels : List String}
    (hs : s.iterations? way = some (.after started (item :: items) labels))
    (h : p.call (.body step way) (s.beginTurn way started.length item) = (r, t))
    (status : Status) (outer : Table Json) :
    (t.endTurn way started.length status outer).iterations? way =
      some (.after (started ++ [status]) items labels) := by
  have hb := (Runs.of_call _ _ _ _ h).body_iterations
  rw [iterations?_endTurn, hb, iterations?_beginTurn, hs, Option.map_some, Option.map_some,
    Iterations.set_after]

theorem length_le (h : Iterates p step way k items s statuses r t) :
    statuses.length ≤ items.length := by
  induction h with
  | exhausted => exact le_rfl
  | failed => exact Nat.succ_le_succ (Nat.zero_le _)
  | left => exact Nat.succ_le_succ (Nat.zero_le _)
  | next _ _ _ _ ih => exact Nat.succ_le_succ ih

end Iterates

end Workflow
