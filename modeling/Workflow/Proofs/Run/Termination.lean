import Workflow.Proofs.Run.Calls

/-!
# Every run ends

A call has a finite tree of calls below it, whatever it runs on, although jumps may lead back and
lists come from data. In a run the limit on jumps is met exactly: at most as many jumps are made,
and the run fails for them exactly if a block is asked for one more that it has a target for.
-/
namespace Workflow
variable {σ π : Type}

/-- Whether an event is a request for a jump to a step of the block. -/
def Event.isAim : Event → Bool
  | .aimed .. => true
  | _ => false

def Event.isJump : Event → Bool
  | .jumped .. => true
  | _ => false

namespace RunState

/-- The number of jumps that blocks have been asked for, and had a target for. -/
def aims (s : RunState σ π) : Nat := s.log.countP Event.isAim

def leaps (s : RunState σ π) : Nat := s.log.countP Event.isJump

/-- Every jump that has been asked for is counted and has been made, and the limit allows them. -/
structure Counted (limit : Nat) (s : RunState σ π) : Prop where
  aims : s.aims = s.jumps
  leaps : s.leaps = s.jumps
  le : s.jumps ≤ limit

/-- Every jump that the limit allows has been made, and one more has been asked for. -/
structure Exhausted (limit : Nat) (s : RunState σ π) : Prop where
  aims : s.aims = limit + 1
  leaps : s.leaps = limit

/-- Nothing has happened that concerns jumps. -/
structure Level (s t : RunState σ π) : Prop where
  aims : t.aims = s.aims
  leaps : t.leaps = s.leaps
  jumps : t.jumps = s.jumps

namespace Level
variable {s t : RunState σ π}

theorem of_log (new : List Event) (hl : t.log = new ++ s.log) (hj : t.jumps = s.jumps)
    (hn : ∀ e ∈ new, e.isAim = false ∧ e.isJump = false) : Level s t := by
  have none (f : Event → Bool) (hf : ∀ e ∈ new, f e = false) :
      t.log.countP f = s.log.countP f := by
    rw [hl, List.countP_append, List.countP_eq_zero.mpr fun e he => by simp [hf e he], Nat.zero_add]
  exact ⟨none _ fun e he => (hn e he).1, none _ fun e he => (hn e he).2, hj⟩

theorem perform {p : Program σ π} {step : String} {action : Action}
    {r : Except RunError Program.Outcome} (h : p.perform step action s = (r, t)) : Level s t := by
  obtain ⟨new, hl, hn⟩ := Program.perform_log h
  refine of_log new hl (Program.perform_jumps h) fun e he => ?_
  rcases hn e he with hw | ⟨c, rfl⟩
  · cases e <;> first | exact ⟨rfl, rfl⟩ | cases hw
  · exact ⟨rfl, rfl⟩

theorem turn (way : List Nat) (k : Nat) (status : Status) (outer : Table Json) :
    Level s (s.endTurn way k status outer).settle := by
  refine of_log _ (settle_log _) (settle_jumps _) fun e he => ?_
  obtain ⟨c, -, rfl⟩ : ∃ c, (s.endTurn way k status outer).request = some c ∧
      .settled c = e := by simpa using he
  exact ⟨rfl, rfl⟩

theorem noted {e : Event} (hl : t.log = e :: s.log) (hj : t.jumps = s.jumps)
    (h : e.isAim = false ∧ e.isJump = false) : Level s t :=
  of_log [e] hl hj (by simpa using h)

theorem silent (hl : t.log = s.log) (hj : t.jumps = s.jumps) : Level s t :=
  of_log [] hl hj (by simp)

end Level

theorem Counted.level {s t : RunState σ π} {limit : Nat} (hs : s.Counted limit) (h : Level s t) :
    t.Counted limit :=
  ⟨h.aims.trans (hs.aims.trans h.jumps.symm), h.leaps.trans (hs.leaps.trans h.jumps.symm),
    h.jumps.le.trans hs.le⟩

theorem Counted.jump {s : RunState σ π} {limit : Nat} (hs : s.Counted limit)
    (h : s.jumps + 1 ≤ limit) (way : List Nat) (i j : Nat) :
    ((s.aim way i j).note (.jumped way i j)).Counted limit := by
  refine ⟨?_, ?_, h⟩
  · change (Event.jumped way i j :: .aimed way i j :: s.log).countP Event.isAim = s.jumps + 1
    simp [List.countP_cons, Event.isAim, ← hs.aims, RunState.aims]
  · change (Event.jumped way i j :: .aimed way i j :: s.log).countP Event.isJump = s.jumps + 1
    simp [List.countP_cons, Event.isJump, ← hs.leaps, RunState.leaps]

theorem Counted.stop {s : RunState σ π} {limit : Nat} (hs : s.Counted limit)
    (h : limit < s.jumps + 1) (way : List Nat) (i j : Nat) :
    (s.aim way i j).Exhausted limit := by
  have hj : s.jumps = limit := Nat.le_antisymm hs.le (Nat.le_of_lt_succ h)
  constructor
  · change (Event.aimed way i j :: s.log).countP Event.isAim = limit + 1
    simp [List.countP_cons, Event.isAim, ← hj, ← hs.aims, RunState.aims]
  · change (Event.aimed way i j :: s.log).countP Event.isJump = limit
    simp [Event.isJump, ← hj, ← hs.leaps, RunState.leaps]

end RunState

/-- How a call may end that has begun with all jumps made: as it has begun, or for want of jumps. -/
def JumpsEnd (limit : Nat) (r : Except RunError (Option String)) (t : RunState σ π) : Prop :=
  (t.Counted limit ∧ ∀ step n, r ≠ .error (.jumpLimit step n)) ∨
    t.Exhausted limit ∧ ∃ step, r = .error (.jumpLimit step limit)

namespace JumpsEnd
open RunState
variable {s t : RunState σ π} {limit : Nat} {r : Except RunError (Option String)}

theorem level (h : JumpsEnd limit r s) (hl : Level s t) : JumpsEnd limit r t := by
  rcases h with ⟨hs, hr⟩ | ⟨hs, hr⟩
  · exact .inl ⟨hs.level hl, hr⟩
  · exact .inr ⟨⟨hl.aims.trans hs.aims, hl.leaps.trans hs.leaps⟩, hr⟩

theorem counted {v : Option String} (h : JumpsEnd limit (.ok v) s) : s.Counted limit := by
  rcases h with ⟨hs, -⟩ | ⟨-, step, hr⟩
  · exact hs
  · cases hr

theorem error {e : RunError} (h : e.isJump = false) (hs : s.Counted limit) :
    JumpsEnd limit (.error e) s :=
  .inl ⟨hs, fun _ _ hr => by cases hr; cases h⟩

theorem ok {v : Option String} (hs : s.Counted limit) : JumpsEnd limit (.ok v) s :=
  .inl ⟨hs, fun _ _ hr => by cases hr⟩

end JumpsEnd

namespace Runs
open RunState JumpsEnd
variable {p : Program σ π} {c : Call} {s t : RunState σ π}
  {r : Except RunError (Option String)}

theorem jumpsEnd (h : Runs p c s r t) (hs : s.Counted p.config.maxJumps) :
    JumpsEnd p.config.maxJumps r t := by
  induction h with
  | block _ ih => exact ih (hs.level (.noted rfl rfl ⟨rfl, rfl⟩))
  | finished _ => exact ok hs
  | skipped _ _ => exact ok hs
  | failed _ _ _ ih => exact ih hs
  | next _ _ _ _ ih ih' => exact ih' (ih hs).counted
  | lost _ _ _ _ ih => exact .inl ⟨(ih hs).counted, fun _ _ hr => by cases hr⟩
  | stopped _ _ _ _ hl ih => exact .inr ⟨(ih hs).counted.stop hl _ _ _, _, rfl⟩
  | jump _ _ _ _ hl _ ih ih' => exact ih' ((ih hs).counted.jump hl _ _ _)
  | once _ _ ih =>
    exact (ih (hs.level (.noted rfl rfl ⟨rfl, rfl⟩))).level (.silent rfl rfl)
  | each _ _ ih =>
    exact (ih (hs.level (.noted rfl rfl ⟨rfl, rfl⟩))).level (.silent rfl rfl)
  | refused h =>
    rcases Program.perform_cases h with ⟨-, -, he⟩ | ⟨control, -, hr, -⟩
    · exact error (he _ rfl) (hs.level (.perform h))
    · cases hr
  | alone h _ => exact ok (hs.level (.perform h))
  | inside h _ _ _ ih => exact ok (ih (hs.level (.perform h))).counted
  | broken h _ _ _ ih => exact ih (hs.level (.perform h))
  | unread _ => exact error rfl hs
  | noList _ _ => exact error rfl hs
  | empty _ => exact ok (hs.level (.silent rfl rfl))
  | list _ _ _ ih =>
    exact (ih (hs.level (.noted rfl rfl ⟨rfl, rfl⟩))).level (.noted rfl rfl ⟨rfl, rfl⟩)
  | ended _ => exact ok hs
  | torn _ _ ih =>
    exact (ih (hs.level (.noted rfl rfl ⟨rfl, rfl⟩))).level (.silent rfl rfl)
  | left _ _ _ ih =>
    have hb := (ih (hs.level (.noted rfl rfl ⟨rfl, rfl⟩))).counted
    exact ok (hb.level (.turn _ _ _ _))
  | turn _ _ _ _ ih ih' =>
    have hb := (ih (hs.level (.noted rfl rfl ⟨rfl, rfl⟩))).counted
    exact ih' ((hb.level (.turn _ _ _ _)).level (.silent rfl rfl))

end Runs

/-- Every call ends, and in one way only: it has a finite tree of calls below it, which the program
goes through. In the run of a pipeline at most as many jumps are made as the limit allows, and it
fails for the limit exactly if, when so many have been made, one more is asked for. -/
theorem run_ends (p : Program σ π) :
    (∀ c s, ∃ r t, Runs p c s r t ∧ (∀ q u, Runs p c s q u → q = r ∧ u = t) ∧
      p.call c s = (r, t)) ∧
    ∀ pipeline e, ∃ r s, Engine.execution p pipeline e = (r, s) ∧
      s.leaps = min s.aims p.config.maxJumps ∧ s.aims ≤ p.config.maxJumps + 1 ∧
      ((∃ step, r = .error (.jumpLimit step p.config.maxJumps)) ↔
        s.aims = p.config.maxJumps + 1) ∧
      ∀ step limit, r = .error (.jumpLimit step limit) → limit = p.config.maxJumps := by
  refine ⟨fun c s => ?_, fun pipeline e => ?_⟩
  · have h := Runs.of_call (p := p) c s _ _ rfl
    exact ⟨_, _, h, fun q u k => k.unique h, rfl⟩
  · obtain ⟨r, s, h⟩ : ∃ r s, Engine.execution p pipeline e = (r, s) := ⟨_, _, rfl⟩
    have start : (e.beginRun pipeline).Counted p.config.maxJumps := ⟨rfl, rfl, Nat.zero_le _⟩
    have hend := (Engine.execution_runs p pipeline e).jumpsEnd start
    rw [h] at hend
    refine ⟨r, s, h, ?_⟩
    rcases hend with ⟨hs, hr⟩ | ⟨hs, step, hr⟩
    · have haims : s.aims ≤ p.config.maxJumps := hs.aims.le.trans hs.le
      have hno (step : String) (limit : Nat) : r ≠ .error (.jumpLimit step limit) := by
        rintro rfl
        exact hr step limit rfl
      refine ⟨?_, haims.trans (Nat.le_succ _), ⟨?_, fun hmany => ?_⟩, ?_⟩
      · rw [Nat.min_eq_left haims]
        exact hs.leaps.trans hs.aims.symm
      · rintro ⟨step, he⟩
        exact absurd he (hno step _)
      · omega
      · exact fun step limit he => absurd he (hno step limit)
    · obtain rfl : r = .error (.jumpLimit step p.config.maxJumps) := by
        cases r <;> cases hr
        rfl
      refine ⟨?_, hs.aims.le, ⟨fun _ => hs.aims, fun _ => ⟨step, rfl⟩⟩, ?_⟩
      · rw [hs.aims, Nat.min_eq_right (Nat.le_succ _)]
        exact hs.leaps
      · rintro _ _ he
        cases he
        rfl

end Workflow
