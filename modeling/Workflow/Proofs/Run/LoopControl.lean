import Workflow.Proofs.Expression.Scan
import Workflow.Proofs.Run.Watch
import Workflow.Proofs.Run.Reach

/-!
# Requests to leave an iteration

A request to leave an iteration is met by the loop that is innermost when it is made, unless the run
fails before. It fails then because of a jump: a jump still counts after the steps inside it have
asked to leave the iteration, and the block may have no target for it or no jump left. The request
is stranded in this case, and only in this case.
-/
namespace Workflow
open Relation
variable {σ π : Type}

/-- A block is asked for a jump that it cannot follow, while a request waits. -/
inductive Strands (p : Program σ π) : Call × RunState σ π → Prop
  | lost {steps way i s step target t} : steps[i]? = some step → s.request = none →
      Runs p (.step step (way ++ [i])) s (.ok (some target)) t → t.request ≠ none →
      position? steps target = none → Strands p (.rest steps way i, s)
  | stopped {steps way i s step target t j} : steps[i]? = some step → s.request = none →
      Runs p (.step step (way ++ [i])) s (.ok (some target)) t → t.request ≠ none →
      position? steps target = some j → p.config.maxJumps < t.jumps + 1 →
      Strands p (.rest steps way i, s)

theorem Strands.fails {p : Program σ π} {c : Call} {s : RunState σ π} (h : Strands p (c, s)) :
    ∃ e t, Runs p c s (.error e) t ∧ e.isJump = true ∧ t.request ≠ none := by
  cases h with
  | lost hs hq h ht hp => exact ⟨_, _, .lost hs hq h hp, rfl, ht⟩
  | stopped hs hq h ht hp hl => exact ⟨_, _, .stopped hs hq h hp hl, rfl, ht⟩

/-- If a call fails, so does the call that makes it, and no request is met any more. -/
theorem Makes.error {p : Program σ π} {c d : Call} {s t u : RunState σ π} {e : RunError}
    (h : Makes p (c, s) (d, t)) (hd : Runs p d t (.error e) u) :
    ∃ v, Runs p c s (.error e) v ∧ v.request = u.request := by
  cases h with
  | block => exact ⟨_, .block hd, rfl⟩
  | step hs hq => exact ⟨_, .failed hs hq hd, rfl⟩
  | next hs hq h => exact ⟨_, .next hs hq h hd, rfl⟩
  | jump hs hq h hp hl => exact ⟨_, .jump hs hq h hp hl hd, rfl⟩
  | once hi => exact ⟨_, .once hi hd, rfl⟩
  | each hi => exact ⟨_, .each hi hd, rfl⟩
  | inside h hdescend hne => exact ⟨_, .broken h hdescend hne hd, rfl⟩
  | list he hi => exact ⟨_, .list he hi hd, rfl⟩
  | item hc => exact ⟨_, .torn hc hd, rfl⟩
  | turn hc h hl => exact ⟨_, .turn hc h hl hd, rfl⟩

namespace Runs
variable {p : Program σ π} {c : Call} {s t : RunState σ π} {r : Except RunError (Option String)}

theorem rest_request {steps : List Step} {way : List Nat} {i : Nat} {e : RunError}
    (h : Runs p (.rest steps way i) s (.error e) t) : s.request = none := by
  cases h <;> assumption

/-- A request that still waits when a call fails has been stranded. -/
theorem strands (h : Runs p c s r t) (hs : s.request = none) {e : RunError} (hr : r = .error e)
    (ht : t.request ≠ none) : ∃ x, ReflTransGen (Makes p) (c, s) x ∧ Strands p x := by
  have up {x y : Call × RunState σ π} (hm : Makes p x y) :
      (∃ z, ReflTransGen (Makes p) y z ∧ Strands p z) →
        ∃ z, ReflTransGen (Makes p) x z ∧ Strands p z :=
    fun ⟨z, hz, hstrands⟩ => ⟨z, .head hm hz, hstrands⟩
  induction h with
  | block _ ih => exact up .block (ih hs hr ht)
  | finished | skipped | alone | inside | empty | ended | left => cases hr
  | failed hi hq _ ih => exact up (.step hi hq) (ih hs hr ht)
  | next hi hq h h' _ ih =>
    subst hr
    exact up (.next hi hq h) (ih h'.rest_request rfl ht)
  | lost hi hq h hp => exact ⟨_, .refl, .lost hi hq h ht hp⟩
  | stopped hi hq h hp hl => exact ⟨_, .refl, .stopped hi hq h ht hp hl⟩
  | jump hi hq h hp hl h' _ ih =>
    subst hr
    exact up (.jump hi hq h hp hl) (ih h'.rest_request rfl ht)
  | once hi _ ih => exact up (.once hi) (ih hs hr ht)
  | each hi _ ih => exact up (.each hi) (ih hs hr ht)
  | refused h =>
    rcases Program.perform_cases h with ⟨hw, -⟩ | ⟨control, -, hok, -⟩
    · exact absurd (hw.request.trans hs) ht
    · cases hok
  | broken h hd hne _ ih =>
    rcases Program.perform_cases h with ⟨hw, -⟩ | ⟨control, -, hok, -⟩
    · exact up (.inside h hd hne) (ih (hw.request.trans hs) hr ht)
    · cases hok
      cases hd
  | unread | noList => exact absurd hs ht
  | list he hi _ ih => exact up (.list he hi) (ih hs hr ht)
  | torn hc _ ih => exact up (.item hc) (ih hs hr ht)
  | turn hc h hl _ _ ih => exact up (.turn hc h hl) (ih (RunState.settle_request _) hr ht)

/-- A request that is stranded below a call still waits when the call ends. -/
theorem of_strands {x : Call × RunState σ π} (hx : ReflTransGen (Makes p) (c, s) x)
    (h : Strands p x) : ∃ e t, Runs p c s (.error e) t ∧ e.isJump = true ∧ t.request ≠ none := by
  suffices hy : ∀ y, ReflTransGen (Makes p) y x →
      ∃ e t, Runs p y.1 y.2 (.error e) t ∧ e.isJump = true ∧ t.request ≠ none from hy _ hx
  intro y hy
  induction hy using ReflTransGen.head_induction_on with
  | refl => exact h.fails
  | head hm _ ih =>
    obtain ⟨e, t, ht, he, hq⟩ := ih
    obtain ⟨v, hv, hrequest⟩ := hm.error ht
    exact ⟨e, v, hv, he, by rw [hrequest]; exact hq⟩

end Runs

/-- What a watch knows at the beginning of a call, it knows at the beginning of the calls below. -/
theorem Makes.begins {p : Program σ π} {c d : Call} {s t : RunState σ π}
    (h : Makes p (c, s) (d, t)) {w : Watch} (hw : c.Begins w s) : ∃ v, d.Begins v t := by
  cases h with
  | block => exact ⟨w, hw.block⟩
  | step _ hq => exact ⟨w, hw.step hq⟩
  | next _ hq h =>
    obtain ⟨v, hv, hn⟩ := h.watched (hw.step hq)
    exact ⟨v, hv, hn _ rfl⟩
  | @jump steps way i _ _ _ t _ _ hq h =>
    obtain ⟨v, hv, hn⟩ := h.watched (hw.step hq)
    have hrest : (Call.rest steps way i).Begins v t := ⟨hv, hn _ rfl⟩
    exact ⟨v, hrest.jump⟩
  | once => exact ⟨w, hw.once⟩
  | each => exact ⟨w, hw.each⟩
  | inside h hd => exact hw.inside h hd
  | list => exact hw.list _
  | item hc => exact hw.item hc
  | turn hc hb hstay => exact hw.turn hc (fun _ => hb.watched) hb.keeps hstay

theorem Reaches.begins {p : Program σ π} {pipeline : Pipeline} {e : Engine σ π} {c : Call}
    {s : RunState σ π} (h : Reaches p pipeline e c s) : ∃ w, c.Begins w s := by
  refine h.induct (P := fun d t => ∃ w, d.Begins w t) ⟨.start, ⟨⟨rfl, rfl⟩, rfl, rfl⟩, rfl, rfl⟩ ?_
  rintro c s d t ⟨w, hw⟩ hm
  exact hm.begins hw

/-- A watch knows how many loops a run is in. -/
theorem Call.Begins.told {c : Call} {w : Watch} {s : RunState σ π} (h : c.Begins w s) :
    s.Told w ∧ w.loops.length = s.frames.length := by
  have seen (hs : s.Seen w) : s.Told w ∧ w.loops.length = s.frames.length :=
    ⟨hs.toTold, by rw [hs.loops, List.length_map]⟩
  cases c with
  | turns =>
    obtain ⟨hs, -⟩ := h
    obtain ⟨f, fs, hf, -, hl⟩ := hs.loops
    exact ⟨hs.toTold, by simp [hf, hl]⟩
  | _ => exact seen h.1

theorem Runs.loop_request {p : Program σ π} {step : Step} {expression : String} {way : List Nat}
    {s t : RunState σ π} {v : Option String} (h : Runs p (.loop step expression way) s (.ok v) t)
    (hs : s.request = none) : t.request = none := by
  cases h with
  | empty => exact hs
  | list _ _ h => exact h.turns_request hs

/-- A run in which a request is stranded fails because of a jump, and the request still waits. -/
theorem Reaches.fails {p : Program σ π} {pipeline : Pipeline} {e : Engine σ π} {c : Call}
    {s : RunState σ π} (h : Reaches p pipeline e c s) (hs : Strands p (c, s)) :
    (Engine.execution p pipeline e).2.request ≠ none ∧
      ∃ cause, (Engine.execution p pipeline e).1 = .error cause ∧ cause.isJump = true := by
  obtain ⟨cause, t, ht, hjump, hq⟩ := Runs.of_strands h hs
  obtain ⟨hr, hend⟩ := (Engine.execution_runs p pipeline e).unique ht
  refine ⟨by rw [hend]; exact hq, cause, ?_, hjump⟩
  cases hx : (Engine.execution p pipeline e).1 with
  | ok v =>
    rw [hx] at hr
    cases hr
  | error failure =>
    rw [hx] at hr
    cases hr
    rfl

/-- A run in which a request waits outside of all loops at some time has stranded it. -/
theorem Engine.strands_of_log {p : Program σ π} {pipeline : Pipeline} {e : Engine σ π}
    {log : List Event} {v : Watch} (hl : log <:+ (execution p pipeline e).2.log)
    (hv : Watch.of log = some v) (hloops : v.loops = []) (hq : v.request ≠ none) :
    ∃ c s, Reaches p pipeline e c s ∧ Strands p (c, s) := by
  have h := execution_runs p pipeline e
  obtain ⟨w, hw, hend⟩ := h.watched (w := .start) ⟨⟨⟨rfl, rfl⟩, rfl, rfl⟩, rfl, rfl⟩
  have hstranded : v.stranded = true := by
    by_contra hs
    exact (Watch.sound_of hv).loops hq (Bool.not_eq_true _ ▸ hs) hloops
  obtain ⟨hws, hwq⟩ := Watch.stranded_of hl hv hstranded hw.log
  have hsq : (execution p pipeline e).2.request ≠ none := by
    rw [← hw.request, hwq]
    exact hq
  cases hr : (execution p pipeline e).1 with
  | ok value =>
    have hsound := hend none (by rw [hr]; rfl)
    cases hws.symm.trans hsound
  | error cause =>
    obtain ⟨⟨c, s⟩, hreach, hstrands⟩ := h.strands rfl (e := cause) (by rw [hr]; rfl) hsq
    exact ⟨c, s, hreach, hstrands⟩

/-- Every call for a block, a step or a loop leaves the loops as it has found them, and a loop that
is not asked for anything before is not asked for anything after, unless it fails. The log of a run
lets only events come that may come, and it tells what the state holds. A request waits outside of
all loops only where it is stranded, and then the run has failed because of a jump. -/
theorem loop_control (p : Program σ π) :
    (∀ steps way s, (p.call (.block steps way) s).2.frames = s.frames) ∧
    (∀ step way s, (p.call (.step step way) s).2.frames = s.frames) ∧
    (∀ step expression way s, (p.call (.loop step expression way) s).2.frames = s.frames ∧
      (s.request = none → ∀ v, (p.call (.loop step expression way) s).1 = .ok v →
        (p.call (.loop step expression way) s).2.request = none)) ∧
    ∀ pipeline e,
      (∀ c s, Reaches p pipeline e c s → ∃ w, Watch.of s.log = some w ∧
        w.request = s.request ∧ w.loops.length = s.frames.length) ∧
      ∃ r s w, Engine.execution p pipeline e = (r, s) ∧ Watch.of s.log = some w ∧
        w.request = s.request ∧ s.frames = [] ∧ w.loops = [] ∧
        ((∃ log v, log <:+ s.log ∧ Watch.of log = some v ∧ v.loops = [] ∧ v.request ≠ none) ↔
          ∃ c u, Reaches p pipeline e c u ∧ Strands p (c, u)) ∧
        ((∃ c u, Reaches p pipeline e c u ∧ Strands p (c, u)) →
          s.request ≠ none ∧ ∃ cause, r = .error cause ∧ cause.isJump = true) := by
  have run (c : Call) (s : RunState σ π) : Runs p c s (p.call c s).1 (p.call c s).2 :=
    Runs.of_call c s _ _ rfl
  refine ⟨fun steps way s => (run (.block steps way) s).keeps,
    fun step way s => (run (.step step way) s).keeps,
    fun step expression way s => ⟨(run (.loop step expression way) s).keeps, fun hs v hv => ?_⟩,
    fun pipeline e => ⟨?_, ?_⟩⟩
  · have h := run (.loop step expression way) s
    rw [hv] at h
    exact h.loop_request hs
  · intro c s hs
    obtain ⟨w, hw⟩ := hs.begins
    obtain ⟨⟨hlog, hrequest⟩, hloops⟩ := hw.told
    exact ⟨w, hlog, hrequest, hloops⟩
  · have h := Engine.execution_runs p pipeline e
    rcases hrun : Engine.execution p pipeline e with ⟨r, s⟩
    rw [hrun] at h
    have hframes : s.frames = [] := h.keeps
    obtain ⟨w, hw, -⟩ := h.watched (w := .start) ⟨⟨⟨rfl, rfl⟩, rfl, rfl⟩, rfl, rfl⟩
    have hloops : w.loops = [] := by rw [hw.loops, hframes, List.map_nil]
    have strand : (∃ c u, Reaches p pipeline e c u ∧ Strands p (c, u)) →
        s.request ≠ none ∧ ∃ cause, r = .error cause ∧ cause.isJump = true := by
      rintro ⟨c, u, hreach, hstrands⟩
      have hfails := hreach.fails hstrands
      rw [hrun] at hfails
      exact hfails
    refine ⟨r, s, w, rfl, hw.log, hw.request, hframes, hloops, ⟨?_, ?_⟩, strand⟩
    · rintro ⟨log, v, hl, hv, hvl, hvq⟩
      have hlog : log <:+ (Engine.execution p pipeline e).2.log := by
        rw [hrun]
        exact hl
      exact Engine.strands_of_log hlog hv hvl hvq
    · intro hstrands
      refine ⟨s.log, w, List.suffix_rfl, hw.log, hloops, ?_⟩
      rw [hw.request]
      exact (strand hstrands).1

/-- A jump to itself without any jumps left, with a step inside it that asks to leave the loop. -/
theorem loop_control_stranded :
    let again := Step.bare "again" none (.jump "again" none) [.bare "leave" none .leaveLoop []]
    let pipeline := Pipeline.bare "main" [.bare "each" (some "context.xs") .idle [again]]
    let p := Program.bare ⟨0, "pipeline", false⟩ pipeline
    let e := Engine.bare ⟨[("xs", .arr [.null, .bool true])]⟩
    ∃ r s, Engine.execution p pipeline e = (r, s) ∧ s.frames = [] ∧ s.request ≠ none ∧
      ∃ cause, r = .error cause ∧ cause.isJump = true := by
  intro again pipeline p e
  have hstrands : ∃ c u, Reaches p pipeline e c u ∧ Strands p (c, u) := by
    have hlist : Expression.evaluate "context.xs" (e.beginRun pipeline).context =
        .ok (.arr [.null, .bool true]) :=
      Expression.evaluate_path "xs".toList (by decide) (by decide) _
    have hloop : Reaches p pipeline e
        (.loop (.bare "each" (some "context.xs") .idle [again]) "context.xs" [0]) _ :=
      ((Relation.ReflTransGen.single .block).tail (.step rfl rfl)).tail (.each rfl)
    have hsite : Reaches p pipeline e (.rest [again] [0] 0) _ :=
      (((hloop.tail (.list hlist (by decide))).tail (.item rfl)).tail
        (.inside rfl rfl (by decide))).tail .block
    exact ⟨_, _, hsite, .stopped rfl rfl (.once rfl (.inside (o := ⟨some "again", true⟩) rfl rfl
      (by decide) (.block (.next rfl rfl (.once rfl (.alone (o := ⟨none, false⟩) rfl (.inl rfl)))
      (.finished rfl))))) (Option.some_ne_none LoopControl.leaveLoop) rfl (Nat.succ_pos 0)⟩
  obtain ⟨-, -, -, h⟩ := loop_control p
  obtain ⟨r, s, w, hrun, -, -, hframes, -, -, hfails⟩ := (h pipeline e).2
  obtain ⟨hq, hcause⟩ := hfails hstrands
  exact ⟨r, s, hrun, hframes, hq, hcause⟩

end Workflow
