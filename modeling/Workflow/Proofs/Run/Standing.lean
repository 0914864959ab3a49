import Workflow.Proofs.Run.Reach

/-!
# How the nodes of a run stand

A step that has been called for leaves its node completed or failed, and the nodes below it go with
it. So between two calls every node is either pending or completed, and tells by that whether its
step has been started. A call that fails leaves the error at all nodes from its own down to the one
where it has come up, and nowhere else.
-/
namespace Workflow
open Relation
variable {σ π : Type}

namespace Progress

/-- How far a node has come, and why it has failed. -/
def standing (n : Progress) : Status × Option String := (n.status, n.error)

/-- Every node below the node of a step is that of a step. -/
theorem node?_ofStep {step : Step} {w : List Nat} {n : Progress}
    (h : (ofStep step).node? w = some n) : ∃ inner, n = ofStep inner := by
  induction w generalizing step with
  | nil =>
    cases h
    exact ⟨step, rfl⟩
  | cons i w ih =>
    rw [node?, ofStep_children, ofSteps_eq_map, List.getElem?_map] at h
    obtain ⟨child, hc, hn⟩ := Option.bind_eq_some_iff.mp h
    obtain ⟨inner, -, rfl⟩ := Option.map_eq_some_iff.mp hc
    exact ih hn

theorem standing_ofStep (step : Step) : (ofStep step).standing = (.pending, none) := by
  cases step
  rfl

end Progress

namespace RunState
open Progress
variable {s t : RunState σ π} {w : List Nat}

def standing? (way : List Nat) (s : RunState σ π) : Option (Status × Option String) :=
  (s.own? way).map standing

theorem standing?_eq_node? (way : List Nat) (s : RunState σ π) :
    s.standing? way = (s.progress.node? way).map standing := by
  rw [standing?, own?, Option.map_map]
  rfl

theorem standing?_mapNode {f : Progress → Progress} (hf : Local f)
    (h : ∀ n, (f n).standing = n.standing) (way w : List Nat) (s : RunState σ π) :
    (s.mapNode way f).standing? w = s.standing? w := by
  rw [standing?, own?_mapNode hf]
  split
  · rw [Option.map_map]
    exact congrArg (Option.map · _) (funext h)
  · rfl

theorem standing?_begin (way w : List Nat) (s : RunState σ π) :
    (s.begin way).standing? w =
      if w = way then (s.standing? w).map fun _ => (.running, none) else s.standing? w := by
  rw [standing?, own?_begin]
  split
  · rw [standing?, Option.map_map, Option.map_map]
    rfl
  · rfl

theorem standing?_finish (way w : List Nat) (r : Except RunError (Option String))
    (s : RunState σ π) :
    (s.finish way r).standing? w =
      if w = way then (s.standing? w).map fun x => match r with
        | .ok _ => (.completed, x.2)
        | .error e => (.failed, some e.message)
      else s.standing? w := by
  rw [standing?, own?_finish]
  split
  · rw [standing?, Option.map_map, Option.map_map]
    cases r <;> rfl
  · rfl

/-- No node comes any further. -/
structure Still (s t : RunState σ π) : Prop where
  standing : ∀ w, t.standing? w = s.standing? w
  started : ∀ w, .started w ∈ t.log ↔ .started w ∈ s.log

namespace Still

theorem of_log (new : List Event) (hs : ∀ w, t.standing? w = s.standing? w)
    (hl : t.log = new ++ s.log) (hn : ∀ w, .started w ∉ new) : Still s t := by
  refine ⟨hs, fun w => ?_⟩
  rw [hl, List.mem_append]
  exact or_iff_right (hn w)

/-- What leaves the tree alone and notes no start. -/
theorem of_progress (new : List Event) (hp : t.progress = s.progress) (hl : t.log = new ++ s.log)
    (hn : ∀ w, .started w ∉ new) : Still s t := by
  refine of_log new (fun w => ?_) hl hn
  rw [standing?, standing?, own?, own?, hp]

theorem note (s : RunState σ π) {e : Event} (he : ∀ w, e ≠ .started w) : Still s (s.note e) := by
  refine of_progress [e] rfl rfl fun w hw => ?_
  exact he w (List.mem_singleton.mp hw).symm

theorem perform {p : Program σ π} {step : String} {action : Action}
    {r : Except RunError Program.Outcome} (h : p.perform step action s = (r, t)) : Still s t := by
  obtain ⟨new, hl, hn⟩ := Program.perform_log h
  refine of_progress new (Program.perform_progress h) hl fun w hw => ?_
  rcases hn _ hw with hwork | ⟨c, hc⟩
  · cases hwork
  · cases hc

theorem aim (way : List Nat) (i j : Nat) : Still s (s.aim way i j) :=
  of_progress [.aimed way i j] rfl rfl (by simp)

theorem push (way : List Nat) (frame : LoopFrame) : Still s (s.push way frame) :=
  of_progress [.opened way _] rfl rfl (by simp)

theorem pop : Still s s.pop := of_progress [.closed] rfl rfl (by simp)

theorem settle : Still s s.settle := by
  refine of_progress _ (settle_progress s) (settle_log s) fun w hw => ?_
  simp at hw

theorem startLoop (way : List Nat) (items : List Json) : Still s (s.startLoop way items) :=
  of_log [] (fun w => standing?_mapNode (.startIterations _) (fun _ => rfl) way w s) rfl (by simp)

theorem beginTurn (way : List Nat) (k : Nat) (item : Json) :
    Still s (s.beginTurn way k item) :=
  of_log [.turned k] (fun w => standing?_mapNode (.setIteration _ _) (fun _ => rfl) way w _) rfl
    (by simp)

theorem endTurn (way : List Nat) (k : Nat) (status : Status) (outer : Table Json) :
    Still s (s.endTurn way k status outer) :=
  of_log [] (fun w => standing?_mapNode (.setIteration _ _) (fun _ => rfl) way w _) rfl (by simp)

theorem trans {u : RunState σ π} (h : Still s t) (k : Still t u) : Still s u :=
  ⟨fun w => (k.standing w).trans (h.standing w), fun w => (k.started w).trans (h.started w)⟩

end Still

/-- A node that is at rest has no error, and is completed if its step has been started. -/
def Rests (w : List Nat) (s : RunState σ π) : Prop :=
  ∀ x, s.standing? w = some x →
    x = (if .started w ∈ s.log then .completed else .pending, none)

/-- A node has failed for a reason. -/
structure Broken (cause : RunError) (w : List Nat) (s : RunState σ π) : Prop where
  started : .started w ∈ s.log
  standing : ∀ x, s.standing? w = some x → x = (.failed, some cause.message)

theorem Rests.still (h : s.Rests w) (hs : Still s t) : t.Rests w := by
  intro x hx
  rw [hs.standing] at hx
  simpa only [hs.started] using h x hx

theorem Broken.still {cause : RunError} (h : s.Broken cause w) (hs : Still s t) :
    t.Broken cause w :=
  ⟨(hs.started w).mpr h.started, fun x hx => h.standing x (hs.standing w ▸ hx)⟩

theorem Rests.begin (h : s.Rests w) {way : List Nat} (hw : w ≠ way) : (s.begin way).Rests w := by
  intro x hx
  rw [standing?_begin, if_neg hw] at hx
  have hlog : .started w ∈ (s.begin way).log ↔ .started w ∈ s.log := by
    change Event.started w ∈ Event.started way :: s.log ↔ _
    simp [hw]
  simpa only [hlog] using h x hx

theorem standing?_finish_of_ne {way : List Nat} (hw : w ≠ way)
    (r : Except RunError (Option String)) (s : RunState σ π) :
    (s.finish way r).standing? w = s.standing? w := by
  rw [standing?_finish, if_neg hw]

theorem Rests.finish (h : s.Rests w) {way : List Nat} (hw : w ≠ way)
    (r : Except RunError (Option String)) : (s.finish way r).Rests w :=
  fun x hx => h x (standing?_finish_of_ne hw r s ▸ hx)

theorem Broken.finish {cause : RunError} (h : s.Broken cause w) {way : List Nat} (hw : w ≠ way)
    (r : Except RunError (Option String)) : (s.finish way r).Broken cause w :=
  ⟨h.started, fun x hx => h.standing x (standing?_finish_of_ne hw r s ▸ hx)⟩

end RunState

/-- Whether a call has the node at the end of a way in its hands: the node of its step, or one
below. -/
def Call.Covers (w : List Nat) : Call → Prop
  | .step _ way => way <+: w
  | .block _ way | .rest _ way _ | .body _ way | .loop _ _ way | .turns _ way => way <+: w ∧ w ≠ way

/-- What a call makes of the nodes that rest before it. If it fails, then at all nodes of its part
of the tree that lead to one place. -/
def Call.Settles (c : Call) (s : RunState σ π) (r : Except RunError (Option String))
    (t : RunState σ π) : Prop :=
  match r with
  | .ok _ => ∀ w, s.Rests w → t.Rests w
  | .error cause => ∃ place, c.way <+: place ∧ ∀ w, s.Rests w →
      (c.Covers w ∧ w <+: place → t.Broken cause w) ∧
        (¬(c.Covers w ∧ w <+: place) → t.Rests w)

namespace Call.Settles
open RunState
variable {c d : Call} {s t u : RunState σ π} {r : Except RunError (Option String)}

theorem after (h : c.Settles t r u) (hs : ∀ w, s.Rests w → t.Rests w) : c.Settles s r u := by
  cases r with
  | ok v => exact fun w hw => h w (hs w hw)
  | error cause =>
    obtain ⟨place, hp, hplace⟩ := h
    exact ⟨place, hp, fun w hw => hplace w (hs w hw)⟩

theorem still (h : c.Settles s r t) (ht : Still t u) : c.Settles s r u := by
  cases r with
  | ok v => exact fun w hw => (h w hw).still ht
  | error cause =>
    obtain ⟨place, hp, hplace⟩ := h
    exact ⟨place, hp, fun w hw => ⟨fun hin => ((hplace w hw).1 hin).still ht,
      fun hout => ((hplace w hw).2 hout).still ht⟩⟩

/-- A call that fails without a call below it leaves all nodes as they are. -/
theorem here {cause : RunError} (hc : ∀ w, c.Covers w → ¬w <+: c.way) (ht : Still s t) :
    c.Settles s (.error cause) t :=
  ⟨c.way, List.prefix_rfl, fun w hw => ⟨fun hin => absurd hin.2 (hc w hin.1),
    fun _ => hw.still ht⟩⟩

theorem not_prefix {way w : List Nat} (h : way <+: w ∧ w ≠ way) : ¬w <+: way :=
  fun hw => h.2 (hw.eq_of_length (Nat.le_antisymm hw.length_le h.1.length_le))

/-- On the way to a place inside a step, the block of the step has the same nodes in its hands. -/
theorem covers_rest {steps : List Step} {step : Step} {way place w : List Nat} {i : Nat}
    (hp : (way ++ [i]) <+: place) (hw : w <+: place) :
    (Call.rest steps way i).Covers w ↔ (Call.step step (way ++ [i])).Covers w := by
  constructor
  · rintro ⟨hway, hne⟩
    refine List.prefix_of_prefix_length_le hp hw ?_
    have hlt : way.length < w.length := by
      refine lt_of_le_of_ne hway.length_le fun hlength => hne ?_
      exact (hway.eq_of_length hlength).symm
    rwa [List.length_append, List.length_singleton]
  · intro hlong
    refine ⟨(List.prefix_append _ _).trans hlong, ?_⟩
    rintro rfl
    have hlength := hlong.length_le
    rw [List.length_append, List.length_singleton] at hlength
    omega

/-- If a step of a block fails, so does the block, and at the same nodes. -/
theorem rest {steps : List Step} {step : Step} {way : List Nat} {i : Nat} {cause : RunError}
    (h : (Call.step step (way ++ [i])).Settles s (.error cause) t) :
    (Call.rest steps way i).Settles s (.error cause) t := by
  obtain ⟨place, hp, hplace⟩ := h
  refine ⟨place, (List.prefix_append _ _).trans hp, fun w hw => ⟨fun hin => ?_, fun hout => ?_⟩⟩
  · exact (hplace w hw).1 ⟨(covers_rest hp hin.2).mp hin.1, hin.2⟩
  · exact (hplace w hw).2 fun hin => hout ⟨(covers_rest hp hin.2).mpr hin.1, hin.2⟩

/-- The end of a step, whose node has been running all the time, while the nodes below have been
settled. -/
theorem finish {step : Step} {way : List Nat}
    (hcovers : ∀ w, c.Covers w ↔ way <+: w ∧ w ≠ way) (hway : c.way = way)
    (h : c.Settles (s.begin way) r t) (hlog : .started way ∈ t.log)
    (hself : t.standing? way = (s.begin way).standing? way) :
    (Call.step step way).Settles s r (t.finish way r) := by
  rw [standing?_begin, if_pos rfl] at hself
  have self (x : Status × Option String) (hx : (t.finish way r).standing? way = some x) :
      x = match r with
        | .ok _ => (.completed, none)
        | .error e => (.failed, some e.message) := by
    rw [standing?_finish, if_pos rfl, hself, Option.map_map] at hx
    obtain ⟨y, -, rfl⟩ := Option.map_eq_some_iff.mp hx
    cases r <;> rfl
  cases r with
  | ok v =>
    intro w hw
    by_cases hne : w = way
    · subst hne
      intro x hx
      rw [self x hx]
      exact congrArg (·, none) (if_pos (c := .started w ∈ (t.finish w (.ok v)).log) hlog).symm
    · exact (h w (hw.begin hne)).finish hne _
  | error cause =>
    obtain ⟨place, hp, hplace⟩ := h
    rw [hway] at hp
    refine ⟨place, hp, fun w hw => ?_⟩
    by_cases hne : w = way
    · subst hne
      exact ⟨fun _ => ⟨hlog, self⟩, fun hout => absurd ⟨List.prefix_rfl, hp⟩ hout⟩
    · obtain ⟨hin, hout⟩ := hplace w (hw.begin hne)
      refine ⟨fun hcover => (hin ⟨(hcovers w).mpr ⟨hcover.1, hne⟩, hcover.2⟩).finish hne _,
        fun hcover => (hout fun h => hcover ?_).finish hne _⟩
      exact ⟨((hcovers w).mp h.1).1, h.2⟩

end Call.Settles

namespace Runs
open RunState Call.Settles
variable {p : Program σ π} {c : Call} {s t : RunState σ π}
  {r : Except RunError (Option String)}

/-- The log only grows. -/
theorem log_suffix (h : Runs p c s r t) : s.log <:+ t.log := by
  have : Std.Refl fun s t : RunState σ π => s.log <:+ t.log := ⟨fun _ => List.suffix_rfl⟩
  have : IsTrans _ fun s t : RunState σ π => s.log <:+ t.log := ⟨fun _ _ _ => List.IsSuffix.trans⟩
  refine h.along (R := fun s t => s.log <:+ t.log) fun s t hs => ?_
  cases hs with
  | act h =>
    obtain ⟨new, hl, -⟩ := Program.perform_log h
    exact ⟨new, hl.symm⟩
  | settle => exact ⟨_, (settle_log s).symm⟩
  | finish | startLoop | endTurn | advance => exact List.suffix_rfl
  | _ => exact List.suffix_cons _ _

/-- The turns of a loop say nothing new about its own node but its iterations. -/
theorem turns_standing {step : Step} {way : List Nat} (h : Runs p (.turns step way) s r t) :
    t.standing? way = s.standing? way := by
  have body {s t : RunState σ π} {r : Except RunError (Option String)}
      (h : Runs p (.body step way) s r t) : t.standing? way = s.standing? way :=
    congrArg (Option.map _) (h.spares fun hw => hw.2 rfl)
  generalize hc : Call.turns step way = c at h
  induction h with
  | ended => rfl
  | torn _ hb =>
    cases hc
    exact ((Still.endTurn _ _ _ _).standing _).trans
      ((body hb).trans ((Still.beginTurn _ _ _).standing _))
  | left _ hb =>
    cases hc
    exact ((Still.endTurn _ _ _ _).trans .settle).standing _ |>.trans
      ((body hb).trans ((Still.beginTurn _ _ _).standing _))
  | turn _ hb _ _ _ ih =>
    cases hc
    exact (ih rfl).trans (((Still.endTurn _ _ _ _).trans .settle).standing _ |>.trans
      ((body hb).trans ((Still.beginTurn _ _ _).standing _)))
  | _ => cases hc

theorem loop_standing {step : Step} {expression : String} {way : List Nat}
    (h : Runs p (.loop step expression way) s r t) : t.standing? way = s.standing? way := by
  cases h with
  | unread | noList => rfl
  | empty => exact (Still.startLoop _ _).standing _
  | list _ _ h =>
    exact (Still.pop.standing _).trans
      (h.turns_standing.trans (((Still.startLoop _ _).trans (.push _ _)).standing _))

theorem settles (h : Runs p c s r t) : c.Settles s r t := by
  induction h with
  | block _ ih => exact after ih fun w hw => hw.still (.note _ (by simp))
  | finished _ => exact fun _ hw => hw
  | skipped _ _ => exact fun _ hw => hw
  | failed _ _ _ ih => exact rest ih
  | next _ _ _ _ ih ih' => exact after ih' ih
  | lost _ _ _ _ ih =>
    exact after (here (fun _ => not_prefix) ⟨fun _ => rfl, fun _ => Iff.rfl⟩) ih
  | stopped _ _ _ _ _ ih => exact after (here (fun _ => not_prefix) (.aim _ _ _)) ih
  | jump _ _ _ _ _ _ ih ih' =>
    exact after ih' fun w hw => (ih w hw).still ((Still.aim _ _ _).trans (.note _ (by simp)))
  | once _ h ih =>
    refine finish (fun _ => Iff.rfl) rfl ih (h.log_suffix.mem List.mem_cons_self) ?_
    exact congrArg (Option.map _) (h.spares fun hw => hw.2 rfl)
  | each _ h ih =>
    exact finish (fun _ => Iff.rfl) rfl ih (h.log_suffix.mem List.mem_cons_self) h.loop_standing
  | refused h => exact here (fun _ => not_prefix) (.perform h)
  | alone h _ => exact fun _ hw => hw.still (.perform h)
  | inside h _ _ _ ih => exact fun w hw => ih w (hw.still (.perform h))
  | broken h _ _ _ ih => exact after ih fun _ hw => hw.still (.perform h)
  | unread _ => exact here (fun _ => not_prefix) ⟨fun _ => rfl, fun _ => Iff.rfl⟩
  | noList _ _ => exact here (fun _ => not_prefix) ⟨fun _ => rfl, fun _ => Iff.rfl⟩
  | empty _ => exact fun _ hw => hw.still (.startLoop _ _)
  | list _ _ _ ih =>
    exact (after ih fun _ hw => hw.still ((Still.startLoop _ _).trans (.push _ _))).still .pop
  | ended _ => exact fun _ hw => hw
  | torn _ _ ih =>
    exact (after ih fun _ hw => hw.still (.beginTurn _ _ _)).still (.endTurn _ _ _ _)
  | left _ _ _ ih =>
    exact fun w hw => (ih w (hw.still (.beginTurn _ _ _))).still
      ((Still.endTurn _ _ _ _).trans .settle)
  | turn _ _ _ _ ih ih' =>
    refine after ih' fun w hw => (ih w (hw.still (.beginTurn _ _ _))).still ?_
    exact ((Still.endTurn _ _ _ _).trans .settle).trans
      (.of_progress [] rfl rfl (by simp))

end Runs
end Workflow
