import Workflow.Proofs.Run.LoopControl
import Workflow.Proofs.Run.Loops

/-!
# Requests that are met

A step that asks to leave an iteration is in the hands of the loop that is innermost when it asks.
The calls between the two end one after the other, each as soon as the one inside it has ended, and
none of them takes the request away or starts another step. So the request comes to the loop, which
records the iteration as completed, unless a jump on the way cannot be followed.
-/
namespace Workflow
open Relation
variable {σ π : Type}

def Call.isTurns : Call → Bool
  | .turns .. => true
  | _ => false

/-- A call makes another one, and is not for the turns of a loop itself. So no chain of such calls
leads through a loop. -/
structure MakesInside (p : Program σ π) (x y : Call × RunState σ π) : Prop where
  makes : Makes p x y
  turnless : x.1.isTurns = false

namespace MakesInside
variable {p : Program σ π} {c d : Call} {s t : RunState σ π}

theorem frames (h : MakesInside p (c, s) (d, t)) (hd : d.isTurns = false) :
    t.frames = s.frames := by
  obtain ⟨hm, hc⟩ := h
  cases hm with
  | next _ _ h => exact h.keeps
  | jump _ _ h => exact h.keeps
  | inside h => exact Program.perform_frames h
  | list => cases hd
  | item | turn => cases hc
  | _ => rfl

end MakesInside

namespace Reaches
variable {p : Program σ π} {pipeline : Pipeline} {e : Engine σ π} {c : Call} {s : RunState σ π}

theorem induct_reached {P : Call → RunState σ π → Prop}
    (start : P (.block pipeline.steps []) (e.beginRun pipeline))
    (step : ∀ c s d t, Reaches p pipeline e c s → P c s → Makes p (c, s) (d, t) → P d t)
    (h : Reaches p pipeline e c s) : P c s :=
  (h.induct (P := fun c s => Reaches p pipeline e c s ∧ P c s) ⟨.refl, start⟩
    fun c s d t hc hm => ⟨hc.1.tail hm, step c s d t hc.1 hc.2 hm⟩).2

/-- What a run calls for inside a loop is inside an iteration of the innermost loop. -/
theorem within (h : Reaches p pipeline e c s) (hc : c.isTurns = false) (hf : s.frames ≠ []) :
    ∃ step way t k item, Reaches p pipeline e (.turns step way) t ∧
      t.currentItem? = some (k, item) ∧ s.frames = t.frames ∧
      ReflTransGen (MakesInside p) (.body step way, t.beginTurn way k item) (c, s) := by
  refine h.induct_reached (P := fun c s => c.isTurns = false → s.frames ≠ [] →
    ∃ step way t k item, Reaches p pipeline e (.turns step way) t ∧
      t.currentItem? = some (k, item) ∧ s.frames = t.frames ∧
      ReflTransGen (MakesInside p) (.body step way, t.beginTurn way k item) (c, s))
    (fun _ hf => absurd rfl hf) (fun c s d t hreach ih hm hd hf => ?_) hc hf
  cases hc : c.isTurns with
  | true =>
    cases hm with
    | @item step way _ k item hk => exact ⟨step, way, s, k, item, hreach, hk, rfl, .refl⟩
    | turn => cases hd
    | _ => cases hc
  | false =>
    have hw : MakesInside p (c, s) (d, t) := ⟨hm, hc⟩
    have hframes := hw.frames hd
    obtain ⟨step, way, u, k, item, hu, hk, hs, hchain⟩ := ih hc (hframes ▸ hf)
    exact ⟨step, way, u, k, item, hu, hk, hframes.trans hs, hchain.tail hw⟩

theorem own? (h : Reaches p pipeline e c s) : ∃ n, s.own? c.way = some n := by
  have hnode : ∃ n, (e.beginRun pipeline).progress.node? c.way = some n := by
    have hfits := h.fits
    cases c with
    | block | rest =>
      obtain ⟨n, hn, -⟩ := hfits
      exact ⟨n, hn⟩
    | _ => exact ⟨_, hfits⟩
  obtain ⟨n, hn⟩ := hnode
  refine Option.isSome_iff_exists.mp ?_
  rw [h.nodes, RunState.own?, hn]
  rfl

section Turns
variable {step : Step} {way : List Nat}

/-- The turns of a loop end as the loop ends. -/
theorem loop (h : Reaches p pipeline e (.turns step way) s) :
    ∃ expression t, Reaches p pipeline e (.loop step expression way) t ∧
      ∀ r u, Runs p (.turns step way) s r u → Runs p (.loop step expression way) t r u.pop := by
  refine h.induct_reached (P := fun c s => c = .turns step way →
    ∃ expression t, Reaches p pipeline e (.loop step expression way) t ∧
      ∀ r u, Runs p c s r u → Runs p (.loop step expression way) t r u.pop)
    nofun (fun c s d t hreach ih hm hd => ?_) rfl
  cases hm with
  | list he hi =>
    cases hd
    exact ⟨_, _, hreach, fun r u hu => .list he hi hu⟩
  | turn hk hb hl =>
    obtain ⟨expression, t, ht, hloop⟩ := ih hd
    exact ⟨expression, t, ht, fun r u hu => hloop r u (.turn hk hb hl hu)⟩
  | _ => cases hd

/-- The turns of a loop are called for with the iterations before the current one recorded, and the
others waiting. -/
theorem recorded (h : Reaches p pipeline e (.turns step way) s) :
    ∃ f fs started labels, s.frames = f :: fs ∧ started.length = f.index ∧
      s.iterations? way = some (.after started (f.items.drop f.index) labels) := by
  refine h.induct_reached (P := fun c s => c = .turns step way →
    ∃ f fs started labels, s.frames = f :: fs ∧ started.length = f.index ∧
      s.iterations? way = some (.after started (f.items.drop f.index) labels))
    nofun (fun c s d t hreach ih hm hd => ?_) rfl
  cases hm with
  | @list _ _ _ _ items he hi =>
    cases hd
    obtain ⟨n, hn⟩ := hreach.own?
    refine ⟨_, s.frames, [], items.map Iterations.label, rfl, rfl, ?_⟩
    refine (RunState.iterations?_startLoop hn items).trans ?_
    simp [Iterations.start, Iterations.after]
  | turn hk hb hl =>
    cases hd
    obtain ⟨f, fs, started, labels, hf, hstarted, hrecord⟩ := ih rfl
    obtain ⟨f', fs', hf', rfl, hi⟩ := RunState.currentItem?_eq_some_iff.mp hk
    cases hf.symm.trans hf'
    rw [List.drop_eq_getElem?_toList_append, hi] at hrecord
    rw [← hstarted] at hb
    refine ⟨f.move 1, fs, started ++ [.completed], labels, ?_, by simp [hstarted, LoopFrame.move],
      ?_⟩
    · rw [RunState.advance_frames, RunState.settle_frames, RunState.endTurn_frames, hb.keeps]
      exact congrArg _ hf
    · rw [← hstarted]
      refine Eq.trans (congrArg (Option.bind · _) (RunState.own?_settle _ _)) ?_
      exact Iterates.record hrecord hb.call_eq .completed s.context
  | _ => cases hd

/-- How an iteration has ended is recorded in the node of its loop. -/
theorem ended (h : Reaches p pipeline e (.turns step way) s) {k : Nat} {item : Json}
    (hk : s.currentItem? = some (k, item)) {r : Except RunError (Option String)}
    {t : RunState σ π} (hb : Runs p (.body step way) (s.beginTurn way k item) r t)
    (status : Status) (outer : Table Json) :
    ∃ it, (t.endTurn way k status outer).iterations? way = some it ∧
      it.statuses[k]? = some status := by
  obtain ⟨f, fs, started, labels, hf, hstarted, hrecord⟩ := h.recorded
  obtain ⟨f', fs', hf', rfl, hi⟩ := RunState.currentItem?_eq_some_iff.mp hk
  cases hf.symm.trans hf'
  rw [List.drop_eq_getElem?_toList_append, hi] at hrecord
  rw [← hstarted] at hb ⊢
  exact ⟨_, Iterates.record hrecord hb.call_eq status outer, by simp [Iterations.after]⟩

end Turns
end Reaches

/-- The rest of a block has nothing more to do while a request waits. -/
theorem Runs.waiting (p : Program σ π) (steps : List Step) (way : List Nat) (i : Nat)
    {s : RunState σ π} (h : s.request ≠ none) : Runs p (.rest steps way i) s (.ok none) s := by
  cases hs : steps[i]? with
  | none => exact .finished hs
  | some step => exact .skipped hs h

/-- A call ends with a request that waits, or there is a jump below it that cannot be followed. -/
def Passes (p : Program σ π) (control : LoopControl) (x : Call × RunState σ π) : Prop :=
  (∃ v t, Runs p x.1 x.2 (.ok v) t ∧ t.request = some control) ∨
    ∃ z, ReflTransGen (Makes p) x z ∧ Strands p z

/-- Inside a loop, a step that asks to leave an iteration does so, and nothing else. -/
theorem Runs.ask {p : Program σ π} {step : Step} {control : LoopControl} {s : RunState σ π}
    (hc : step.action.control? = some control) (hf : s.frames ≠ []) (way : List Nat) :
    Runs p (.body step way) s (.ok none) (s.ask control) := by
  have h := Program.perform_control p step.name hc s
  rw [if_neg (by simpa using hf)] at h
  exact .alone h (.inl rfl)

namespace Passes
variable {p : Program σ π} {control : LoopControl}

/-- The request passes from a call to the one that makes it, but for the turns of a loop. -/
theorem within {x y : Call × RunState σ π} (hy : Passes p control y) (h : MakesInside p x y) :
    Passes p control x := by
  obtain ⟨c, s⟩ := x
  obtain ⟨d, t⟩ := y
  obtain ⟨hm, hc⟩ := h
  rcases hy with ⟨v, u, hu, hq⟩ | ⟨z, hz, hstrands⟩
  swap
  · exact .inr ⟨z, .head hm hz, hstrands⟩
  have ends {v : Option String} {u : RunState σ π} (h : Runs p c s (.ok v) u)
      (hq : u.request = some control) : Passes p control (c, s) := .inl ⟨v, u, h, hq⟩
  have hwaits : u.request ≠ none := by simp [hq]
  cases hm with
  | block => exact ends (.block hu) hq
  | @step steps way i _ _ hs hn =>
    cases v with
    | none => exact ends (.next hs hn hu (.waiting p _ _ _ hwaits)) hq
    | some target =>
      cases hj : position? steps target with
      | none => exact .inr ⟨_, .refl, .lost hs hn hu hwaits hj⟩
      | some j =>
        by_cases hl : u.jumps + 1 ≤ p.config.maxJumps
        · exact ends (.jump hs hn hu hj hl (.waiting p _ _ _ hwaits)) hq
        · exact .inr ⟨_, .refl, .stopped hs hn hu hwaits hj (Nat.lt_of_not_le hl)⟩
  | next hs hn h =>
    exact ends (.next hs hn h hu) hq
  | jump hs hn h hj hl => exact ends (.jump hs hn h hj hl hu) hq
  | once hi => exact ends (.once hi hu) hq
  | each hi => exact ends (.each hi hu) hq
  | inside h hd hne => exact ends (.inside h hd hne hu) hq
  | list he hi => exact ends (.list he hi hu) hq
  | item | turn => cases hc

theorem chain {x y : Call × RunState σ π} (h : ReflTransGen (MakesInside p) x y)
    (hy : Passes p control y) : Passes p control x := by
  induction h using ReflTransGen.head_induction_on with
  | refl => exact hy
  | head hw _ ih => exact ih.within hw

end Passes

/-- How a loop goes on after an iteration that has asked to leave it: the loop ends, or it turns to
its next item. -/
def GoesOn (p : Program σ π) (pipeline : Pipeline) (e : Engine σ π) (step : Step) (way : List Nat)
    (s after : RunState σ π) : LoopControl → Prop
  | .leaveLoop => ∃ expression t, Reaches p pipeline e (.loop step expression way) t ∧
      p.call (.loop step expression way) t = (.ok none, after.pop)
  | .nextItem => Reaches p pipeline e (.turns step way) after.advance ∧
      after.advance.frames = s.frames.modifyHead (LoopFrame.move 1) ∧
      p.call (.turns step way) s = p.call (.turns step way) after.advance

/-- A loop whose iteration ends with a request goes on as it is asked to. -/
theorem Reaches.goesOn {p : Program σ π} {pipeline : Pipeline} {e : Engine σ π} {step : Step}
    {way : List Nat} {s t : RunState σ π} (h : Reaches p pipeline e (.turns step way) s) {k : Nat}
    {item : Json} (hk : s.currentItem? = some (k, item)) {v : Option String}
    (hb : Runs p (.body step way) (s.beginTurn way k item) (.ok v) t) {control : LoopControl}
    (hq : t.request = some control) :
    GoesOn p pipeline e step way s (t.endTurn way k .completed s.context).settle control := by
  cases control with
  | leaveLoop =>
    obtain ⟨expression, u, hu, hloop⟩ := h.loop
    exact ⟨expression, u, hu, (hloop _ _ (.left hk hb hq)).call_eq⟩
  | nextItem =>
    have hl : t.request ≠ some .leaveLoop := by simp [hq]
    refine ⟨h.tail (.turn hk hb hl), ?_, ?_⟩
    · rw [RunState.advance_frames, RunState.settle_frames, RunState.endTurn_frames, hb.keeps]
      rfl
    · exact (Runs.turn hk hb hl (Runs.of_call _ _ _ _ rfl)).call_eq

/-- Inside a loop, a step that asks to leave an iteration succeeds. Then the current iteration of
the innermost loop ends without an error and is recorded as completed, nothing waits any more, and
the loop goes on as it is asked to. Otherwise a jump in the same iteration cannot be followed while
the request waits, and the run fails because of that jump. -/
theorem request_met {p : Program σ π} {pipeline : Pipeline} {e : Engine σ π} {leave : Step}
    {place : List Nat} {u : RunState σ π} (h : Reaches p pipeline e (.body leave place) u)
    {control : LoopControl} (hc : leave.action.control? = some control) (hf : u.frames ≠ []) :
    p.call (.body leave place) u = (.ok none, u.ask control) ∧
    ∃ step way s k item, Reaches p pipeline e (.turns step way) s ∧
      s.currentItem? = some (k, item) ∧ u.frames = s.frames ∧
      ReflTransGen (MakesInside p) (.body step way, s.beginTurn way k item) (.body leave place, u) ∧
      ((∃ v t, p.call (.body step way) (s.beginTurn way k item) = (.ok v, t) ∧
        t.request = some control ∧
        let after := (t.endTurn way k .completed s.context).settle
        (∃ it, after.iterations? way = some it ∧ it.statuses[k]? = some .completed) ∧
          after.request = none ∧ GoesOn p pipeline e step way s after control) ∨
      (∃ x, ReflTransGen (Makes p) (.body step way, s.beginTurn way k item) x ∧ Strands p x) ∧
        ∃ cause, (Engine.execution p pipeline e).1 = .error cause ∧ cause.isJump = true) := by
  have hask : Runs p (.body leave place) u (.ok none) (u.ask control) := .ask hc hf place
  refine ⟨hask.call_eq, ?_⟩
  obtain ⟨step, way, s, k, item, hs, hk, hframes, hchain⟩ := h.within rfl hf
  refine ⟨step, way, s, k, item, hs, hk, hframes, hchain, ?_⟩
  rcases Passes.chain hchain (.inl ⟨none, _, hask, rfl⟩) with ⟨v, t, ht, hq⟩ | ⟨x, hx, hstrands⟩
  · refine .inl ⟨v, t, ht.call_eq, hq, ?_, RunState.settle_request _, hs.goesOn hk ht hq⟩
    obtain ⟨it, hit, hcompleted⟩ := hs.ended hk ht .completed s.context
    exact ⟨it, (congrArg (Option.bind · _) (RunState.own?_settle _ _)).trans hit, hcompleted⟩
  · have hreach : Reaches p pipeline e x.1 x.2 := (hs.tail (.item hk)).trans hx
    exact .inr ⟨⟨x, hx, hstrands⟩, (hreach.fails hstrands).2⟩

/-- A step that asks to leave a loop, inside a jump that has one jump left. -/
theorem request_met_jump :
    let leave := Step.bare "leave" none .leaveLoop []
    let again := Step.bare "again" none (.jump "again" none) [leave]
    let pipeline := Pipeline.bare "main" [.bare "each" (some "context.xs") .idle [again]]
    let p := Program.bare ⟨1, "pipeline", false⟩ pipeline
    let e := Engine.bare ⟨[("xs", .arr [.null, .bool true])]⟩
    ∃ step way s after, Reaches p pipeline e (.turns step way) s ∧
      s.currentItem? = some (0, .null) ∧
      (∃ it, after.iterations? way = some it ∧ it.statuses[0]? = some .completed) ∧
      GoesOn p pipeline e step way s after .leaveLoop := by
  intro leave again pipeline p e
  have hlist : Expression.evaluate "context.xs" (e.beginRun pipeline).context =
      .ok (.arr [.null, .bool true]) :=
    Expression.evaluate_path "xs".toList (by decide) (by decide) _
  have hrun : Runs p (.block pipeline.steps []) (e.beginRun pipeline) (.ok none) _ :=
    .block (.next rfl rfl (.each rfl (.list hlist (by decide) (.left rfl
      (.inside (o := .proceed) rfl rfl (by decide) (.block (.jump rfl rfl
        (.once rfl (.inside (o := ⟨some "again", true⟩) rfl rfl (by decide) (.block (.next rfl rfl
          (.once rfl (.alone (o := ⟨none, false⟩) rfl (.inl rfl))) (.finished rfl)))))
        (j := 0) rfl (by decide) (.skipped rfl (Option.some_ne_none LoopControl.leaveLoop)))))
      rfl))) (.finished rfl))
  obtain ⟨u, hreach, hframes⟩ : ∃ u, Reaches p pipeline e (.body leave [0, 0, 0]) u ∧
      u.frames = [⟨"each", [.null, .bool true], 0⟩] := by
    have hloop : Reaches p pipeline e
        (.loop (.bare "each" (some "context.xs") .idle [again]) "context.xs" [0]) _ :=
      ((Relation.ReflTransGen.single .block).tail (.step rfl rfl)).tail (.each rfl)
    have hbody : Reaches p pipeline e (.body again [0, 0]) _ :=
      (((((hloop.tail (.list hlist (by decide))).tail (.item rfl)).tail
        (.inside (o := .proceed) rfl rfl (by decide))).tail .block).tail (.step rfl rfl)).tail
          (.once rfl)
    exact ⟨_, (((hbody.tail (.inside (o := ⟨some "again", true⟩) rfl rfl (by decide))).tail
      .block).tail (.step rfl rfl)).tail (.once rfl), rfl⟩
  obtain ⟨-, step, way, s, k, item, hs, hk, hsame, -, hmet⟩ :=
    request_met hreach rfl (by simp [hframes])
  have hfirst : s.currentItem? = some (0, .null) := by
    rw [RunState.currentItem?, ← hsame, hframes]
    rfl
  cases hfirst.symm.trans hk
  rcases hmet with ⟨v, t, -, -, hrecord, -, hgoes⟩ | ⟨-, cause, hcause, -⟩
  · exact ⟨step, way, s, _, hs, hfirst, hrecord, hgoes⟩
  · obtain ⟨hr, -⟩ := (Engine.execution_runs p pipeline e).unique hrun
    rw [hcause] at hr
    cases hr

end Workflow
