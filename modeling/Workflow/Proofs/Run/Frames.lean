import Workflow.Proofs.Run.Rules
import Mathlib.Order.Nat
import Mathlib.Logic.Relation

/-!
# What calls keep

A call is a sequence of single changes of the state, so that what every change keeps is kept by
every call: jumps are only counted up, and the log only grows. The loops are kept by whole calls.
Every call leaves them as it has found them, but that the turns of a loop move the innermost one
along its items.
-/
namespace Workflow
variable {σ π : Type}

namespace RunState

theorem settle_of_none {s : RunState σ π} (h : s.request = none) : s.settle = s := by
  simp [settle, h]

theorem settle_of_some {s : RunState σ π} {c : LoopControl} (h : s.request = some c) :
    s.settle = { s.note (.settled c) with request := none } := by
  simp [settle, h]

@[simp] theorem settle_frames (s : RunState σ π) : s.settle.frames = s.frames := by
  unfold settle
  split <;> rfl

@[simp] theorem settle_request (s : RunState σ π) : s.settle.request = none := by
  unfold settle
  split
  · rfl
  · assumption

theorem settle_log (s : RunState σ π) :
    s.settle.log = (s.request.map Event.settled).toList ++ s.log := by
  unfold settle
  cases h : s.request <;> simp [note]

@[simp] theorem settle_jumps (s : RunState σ π) : s.settle.jumps = s.jumps := by
  unfold settle
  split <;> rfl

end RunState

def LoopFrame.move (n : Nat) (f : LoopFrame) : LoopFrame := { f with index := f.index + n }

@[simp] theorem LoopFrame.move_move (m n : Nat) (f : LoopFrame) :
    (f.move m).move n = f.move (m + n) := by
  simp [move, Nat.add_assoc]

@[simp] theorem RunState.endTurn_frames (s : RunState σ π) (way : List Nat) (k : Nat)
    (status : Status) (outer : Table Json) : (s.endTurn way k status outer).frames = s.frames := rfl

theorem RunState.advance_frames (s : RunState σ π) :
    s.advance.frames = s.frames.modifyHead (LoopFrame.move 1) := rfl

namespace RunState

theorem currentItem?_eq_some_iff {s : RunState σ π} {k : Nat} {item : Json} :
    s.currentItem? = some (k, item) ↔
      ∃ f fs, s.frames = f :: fs ∧ f.index = k ∧ f.items[k]? = some item := by
  unfold currentItem?
  cases s.frames with
  | nil => simp
  | cons f fs =>
    simp only [List.head?_cons, Option.bind_some, Option.map_eq_some_iff, Prod.mk.injEq,
      List.cons.injEq]
    constructor
    · rintro ⟨_, hi, rfl, rfl⟩
      exact ⟨f, fs, ⟨rfl, rfl⟩, rfl, hi⟩
    · rintro ⟨f, fs, ⟨rfl, rfl⟩, rfl, hi⟩
      exact ⟨item, hi, rfl, rfl⟩

theorem currentItem?_eq_none {s : RunState σ π} (h : s.remaining = 0) :
    s.currentItem? = none := by
  cases hc : s.currentItem? with
  | none => rfl
  | some current =>
    obtain ⟨f, fs, hf, hk, hi⟩ := currentItem?_eq_some_iff.mp hc
    have := (List.getElem?_eq_some_iff.mp hi).1
    rw [remaining, hf] at h
    dsimp only at h
    omega

theorem remaining_advance {s t : RunState σ π} {current : Nat × Json}
    (hc : s.currentItem? = some current) (ht : t.frames = s.frames) :
    t.advance.remaining + 1 = s.remaining := by
  obtain ⟨f, fs, hf, hk, hi⟩ := currentItem?_eq_some_iff.mp hc
  have := (List.getElem?_eq_some_iff.mp hi).1
  rw [remaining, remaining, advance_frames, ht, hf]
  simp only [List.modifyHead_cons, LoopFrame.move]
  omega

end RunState

def Call.Keeps : Call → List LoopFrame → List LoopFrame → Prop
  | .turns .., before, after => ∃ n, after = before.modifyHead (LoopFrame.move n)
  | _, before, after => after = before

namespace Runs
variable {p : Program σ π} {c : Call} {s t : RunState σ π}
  {r : Except RunError (Option String)}

theorem keeps (h : Runs p c s r t) : c.Keeps s.frames t.frames := by
  have still {fs : List LoopFrame} : ∃ n, fs = fs.modifyHead (LoopFrame.move n) :=
    ⟨0, by cases fs <;> rfl⟩
  induction h with
  | block _ ih => exact ih
  | finished _ => rfl
  | skipped _ _ => rfl
  | failed _ _ _ ih => exact ih
  | next _ _ _ _ ih ih' => exact Eq.trans ih' ih
  | lost _ _ _ _ ih => exact ih
  | stopped _ _ _ _ _ ih => exact ih
  | jump _ _ _ _ _ _ ih ih' => exact Eq.trans ih' ih
  | once _ _ ih => exact ih
  | each _ _ ih => exact ih
  | refused h => exact Program.perform_frames h
  | alone h _ => exact Program.perform_frames h
  | inside h _ _ _ ih => exact Eq.trans ih (Program.perform_frames h)
  | broken h _ _ _ ih => exact Eq.trans ih (Program.perform_frames h)
  | unread _ => rfl
  | noList _ _ => rfl
  | empty _ => rfl
  | list _ _ _ ih =>
    obtain ⟨n, hn⟩ := ih
    change List.drop 1 _ = _
    rw [hn]
    rfl
  | ended _ => exact still
  | torn _ _ ih => exact ih ▸ still
  | left _ _ _ ih =>
    change ∃ n, RunState.frames (RunState.settle _) = _
    rw [RunState.settle_frames]
    exact ih ▸ still
  | turn _ _ _ _ ih ih' =>
    obtain ⟨n, hn⟩ := ih'
    refine ⟨1 + n, ?_⟩
    rw [hn, RunState.advance_frames, RunState.settle_frames, RunState.endTurn_frames,
      List.modifyHead_modifyHead, ih]
    congr 1
    funext f
    exact f.move_move 1 n

end Runs

/-- A single change that a run makes to its state. -/
inductive RunState.Alters (p : Program σ π) : RunState σ π → RunState σ π → Prop
  | enter (s way) : Alters p s (s.note (.entered way))
  | act {s t step action r} (h : p.perform step action s = (r, t)) : Alters p s t
  | aim (s way i j) : Alters p s (s.aim way i j)
  | jump (s way i j) : Alters p s (s.note (.jumped way i j))
  | begin (s way) : Alters p s (s.begin way)
  | finish (s way r) : Alters p s (s.finish way r)
  | startLoop (s way items) : Alters p s (s.startLoop way items)
  | push (s way frame) : Alters p s (s.push way frame)
  | pop (s) : Alters p s s.pop
  | beginTurn (s way k item) : Alters p s (s.beginTurn way k item)
  | endTurn (s way k status outer) : Alters p s (s.endTurn way k status outer)
  | settle (s) : Alters p s s.settle
  | advance (s) : Alters p s s.advance

namespace Runs
open Relation RunState
variable {p : Program σ π} {c : Call} {s t : RunState σ π}
  {r : Except RunError (Option String)}

theorem changes (h : Runs p c s r t) : ReflTransGen (Alters p) s t := by
  induction h with
  | block _ ih => exact .head (.enter _ _) ih
  | finished _ => exact .refl
  | skipped _ _ => exact .refl
  | failed _ _ _ ih => exact ih
  | next _ _ _ _ ih ih' => exact ih.trans ih'
  | lost _ _ _ _ ih => exact ih
  | stopped _ _ _ _ _ ih => exact ih.tail (.aim _ _ _ _)
  | jump _ _ _ _ _ _ ih ih' =>
    exact ((ih.tail (.aim _ _ _ _)).tail (.jump _ _ _ _)).trans ih'
  | once _ _ ih => exact (ReflTransGen.head (.begin _ _) ih).tail (.finish _ _ _)
  | each _ _ ih => exact (ReflTransGen.head (.begin _ _) ih).tail (.finish _ _ _)
  | refused h => exact .single (.act h)
  | alone h _ => exact .single (.act h)
  | inside h _ _ _ ih => exact .head (.act h) ih
  | broken h _ _ _ ih => exact .head (.act h) ih
  | unread _ => exact .refl
  | noList _ _ => exact .refl
  | empty _ => exact .single (.startLoop _ _ _)
  | list _ _ _ ih =>
    exact .head (.startLoop _ _ _) (.head (.push _ _ _) (ih.tail (.pop _)))
  | ended _ => exact .refl
  | torn _ _ ih => exact .head (.beginTurn _ _ _ _) (ih.tail (.endTurn _ _ _ _ _))
  | left _ _ _ ih =>
    exact .head (.beginTurn _ _ _ _) ((ih.tail (.endTurn _ _ _ _ _)).tail (.settle _))
  | turn _ _ _ _ ih ih' =>
    exact .head (.beginTurn _ _ _ _)
      ((((ih.tail (.endTurn _ _ _ _ _)).tail (.settle _)).tail (.advance _)).trans ih')

/-- What every change keeps is kept by every call. -/
theorem along {R : RunState σ π → RunState σ π → Prop} [Std.Refl R] [IsTrans (RunState σ π) R]
    (hc : ∀ s t, Alters p s t → R s t) (h : Runs p c s r t) : R s t := by
  have hs := h.changes
  clear h
  induction hs with
  | refl => exact refl_of R s
  | tail _ hs ih => exact trans_of R ih (hc _ _ hs)

theorem jumps_le (h : Runs p c s r t) : s.jumps ≤ t.jumps := by
  have : Std.Refl fun s t : RunState σ π => s.jumps ≤ t.jumps := ⟨fun s => Nat.le_refl _⟩
  have : IsTrans _ fun s t : RunState σ π => s.jumps ≤ t.jumps := ⟨fun _ _ _ => Nat.le_trans⟩
  refine h.along (R := fun s t => s.jumps ≤ t.jumps) fun s t hs => ?_
  cases hs with
  | act h => exact (Program.perform_jumps h).ge
  | aim => exact Nat.le_succ _
  | settle => exact (settle_jumps _).ge
  | _ => exact le_rfl

end Runs
end Workflow
