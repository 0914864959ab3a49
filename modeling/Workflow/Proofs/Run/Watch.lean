import Workflow.Proofs.Run.Frames

/-!
# Watching a run

Who watches a run by its log knows which loops are open and what has been asked for. A request waits
from the time it is made until the innermost loop meets it, and meanwhile nothing starts and no work
is done. To leave the loop closes it next; to go on takes it to its next item, if there is one.
-/
namespace Workflow
variable {σ π : Type}

/-- An open loop: the number of its items, and the index of the item that comes next. -/
structure OpenLoop where
  count : Nat
  next : Nat
  deriving DecidableEq, Repr

/-- What is known of a run: its open loops, the innermost first, the request that waits, the one
that has just been met, and whether a loop has been closed while a request waited. -/
structure Watch where
  loops : List OpenLoop
  request : Option LoopControl
  settled : Option LoopControl
  stranded : Bool
  deriving DecidableEq, Repr

namespace Watch

def start : Watch := ⟨[], none, none, false⟩

/-- Nothing waits to be met, and nothing has just been met. -/
def Quiet (w : Watch) : Prop := w.request = none ∧ w.settled = none

instance (w : Watch) : Decidable w.Quiet := inferInstanceAs (Decidable (_ ∧ _))

/-- What is known after one more event, if it is one that may come. -/
def step (w : Watch) : Event → Option Watch
  | .entered _ | .started _ | .called _ | .stored => if w.Quiet then some w else none
  | .opened _ count => if w.Quiet then some { w with loops := ⟨count, 0⟩ :: w.loops } else none
  | .turned index =>
    match w.loops with
    | [] => none
    | loop :: outer =>
      if w.request = none ∧ w.settled ≠ some .leaveLoop ∧ index = loop.next ∧
          index < loop.count then
        some { w with loops := ⟨loop.count, index + 1⟩ :: outer, settled := none }
      else none
  | .requested control =>
    if w.Quiet ∧ w.loops ≠ [] then some { w with request := some control } else none
  | .settled control =>
    if w.request = some control ∧ w.loops ≠ [] ∧ w.stranded = false then
      some { w with request := none, settled := some control }
    else none
  | .closed =>
    match w.loops with
    | [] => none
    | loop :: outer =>
      if w.settled = some .nextItem → loop.count ≤ loop.next then
        some ⟨outer, w.request, none, w.request.isSome⟩
      else none
  | .aimed .. | .jumped .. => if w.settled = none ∧ w.stranded = false then some w else none

/-- What a log tells, if its events come as they may. -/
def of : List Event → Option Watch
  | [] => some start
  | e :: log => (of log).bind (·.step e)

theorem of_cons {e : Event} {log : List Event} {w : Watch} (h : of log = some w) :
    of (e :: log) = w.step e := by
  rw [of, h, Option.bind_some]

/-- A request that waits is that of an open loop, unless it is stranded. -/
structure Sound (w : Watch) : Prop where
  stranded : w.stranded = true → w.request ≠ none
  loops : w.request ≠ none → w.stranded = false → w.loops ≠ []

theorem Sound.step {w v : Watch} {e : Event} (hw : w.Sound) (h : w.step e = some v) : v.Sound := by
  cases e with
  | entered | started | called | stored | aimed | jumped =>
    simp only [Watch.step, Option.ite_none_right_eq_some, Option.some.injEq] at h
    exact h.2 ▸ hw
  | opened =>
    simp only [Watch.step, Option.ite_none_right_eq_some, Option.some.injEq] at h
    obtain ⟨-, rfl⟩ := h
    exact ⟨hw.stranded, fun _ _ => List.cons_ne_nil _ _⟩
  | turned index =>
    cases hl : w.loops with
    | nil => simp [Watch.step, hl] at h
    | cons loop outer =>
      simp only [Watch.step, hl, Option.ite_none_right_eq_some, Option.some.injEq] at h
      obtain ⟨-, rfl⟩ := h
      exact ⟨hw.stranded, fun _ _ => List.cons_ne_nil _ _⟩
  | requested =>
    simp only [Watch.step, Option.ite_none_right_eq_some, Option.some.injEq] at h
    obtain ⟨⟨-, hl⟩, rfl⟩ := h
    exact ⟨fun _ => Option.some_ne_none _, fun _ _ => hl⟩
  | settled =>
    simp only [Watch.step, Option.ite_none_right_eq_some, Option.some.injEq] at h
    obtain ⟨⟨-, -, hs⟩, rfl⟩ := h
    exact ⟨fun ht => absurd (ht.symm.trans hs) (by simp), fun hr => absurd rfl hr⟩
  | closed =>
    cases hl : w.loops with
    | nil => simp [Watch.step, hl] at h
    | cons loop outer =>
      simp only [Watch.step, hl, Option.ite_none_right_eq_some, Option.some.injEq] at h
      obtain ⟨-, rfl⟩ := h
      refine ⟨fun hs => Option.isSome_iff_ne_none.mp hs, fun hr hs => ?_⟩
      cases (Option.isSome_iff_ne_none.mpr hr).symm.trans hs

theorem sound_of {log : List Event} {w : Watch} (h : of log = some w) : w.Sound := by
  induction log generalizing w with
  | nil =>
    cases h
    exact ⟨fun hs => absurd hs (by decide), fun hr => absurd rfl hr⟩
  | cons e log ih =>
    obtain ⟨v, hv, hw⟩ := Option.bind_eq_some_iff.mp h
    exact (ih hv).step hw

/-- A stranded request is never met. -/
theorem stranded_step {w v : Watch} {e : Event} (hw : w.stranded = true) (hr : w.request ≠ none)
    (h : w.step e = some v) : v.stranded = true ∧ v.request = w.request := by
  cases e with
  | entered | started | called | stored | opened | requested =>
    simp [Watch.step, Quiet, hr] at h
  | settled | aimed | jumped => simp [Watch.step, hw] at h
  | turned => cases hl : w.loops <;> simp [Watch.step, hl, hr] at h
  | closed =>
    cases hl : w.loops with
    | nil => simp [Watch.step, hl] at h
    | cons loop outer =>
      simp only [Watch.step, hl, Option.ite_none_right_eq_some, Option.some.injEq] at h
      obtain ⟨-, rfl⟩ := h
      exact ⟨Option.isSome_iff_ne_none.mpr hr, rfl⟩

theorem stranded_of {log older : List Event} {w v : Watch} (hl : older <:+ log)
    (hw : of older = some w) (hs : w.stranded = true) (hv : of log = some v) :
    v.stranded = true ∧ v.request = w.request := by
  obtain ⟨new, rfl⟩ := hl
  induction new generalizing v with
  | nil =>
    cases hw.symm.trans hv
    exact ⟨hs, rfl⟩
  | cons e new ih =>
    obtain ⟨u, hu, he⟩ := Option.bind_eq_some_iff.mp hv
    obtain ⟨hstranded, hrequest⟩ := ih hu
    obtain ⟨h, h'⟩ := stranded_step hstranded ((sound_of hu).stranded hstranded) he
    exact ⟨h, h'.trans hrequest⟩

/-- Work tells a watch nothing. -/
theorem of_work {w : Watch} (hw : w.Quiet) {new log : List Event} (hn : ∀ e ∈ new, e.isWork = true)
    (h : of log = some w) : of (new ++ log) = some w := by
  induction new with
  | nil => exact h
  | cons e new ih =>
    rw [List.cons_append, of_cons (ih fun e he => hn e (List.mem_cons_of_mem _ he))]
    have he := hn e List.mem_cons_self
    cases e with
    | called | stored => exact if_pos hw
    | _ => cases he

end Watch

/-- A loop within an iteration, as a watch knows it. -/
def LoopFrame.mark (f : LoopFrame) : OpenLoop := ⟨f.items.length, f.index + 1⟩

namespace RunState

structure Told (w : Watch) (s : RunState σ π) : Prop where
  log : Watch.of s.log = some w
  request : w.request = s.request

/-- A watch knows a run within the iterations of its loops. -/
structure Seen (w : Watch) (s : RunState σ π) : Prop extends Told w s where
  settled : w.settled = none
  loops : w.loops = s.frames.map LoopFrame.mark

/-- A watch knows a run between two iterations of its innermost loop. -/
structure Between (w : Watch) (s : RunState σ π) : Prop extends Told w s where
  loops : ∃ f fs, s.frames = f :: fs ∧ f.index ≤ f.items.length ∧
    w.loops = ⟨f.items.length, f.index⟩ :: fs.map LoopFrame.mark

/-- A watch knows a run whose innermost loop is over. -/
structure Over (w : Watch) (s : RunState σ π) : Prop extends Told w s where
  settled : w.settled = some .nextItem → ∀ loop ∈ w.loops.head?, loop.count ≤ loop.next
  loops : ∃ f fs loop, s.frames = f :: fs ∧ w.loops = loop :: fs.map LoopFrame.mark

variable {w : Watch} {s : RunState σ π}

theorem Seen.quiet (h : s.Seen w) (hw : w.request = none) : w.Quiet := ⟨hw, h.settled⟩

/-- An event that tells nothing. -/
theorem Seen.note (h : s.Seen w) {e : Event} (he : w.step e = some w) : (s.note e).Seen w :=
  ⟨⟨(Watch.of_cons h.log).trans he, h.request⟩, h.settled, h.loops⟩

theorem Seen.congr (h : s.Seen w) {t : RunState σ π} (hl : t.log = s.log)
    (hr : t.request = s.request) (hf : t.frames = s.frames) : t.Seen w :=
  ⟨⟨hl ▸ h.log, hr ▸ h.request⟩, h.settled, hf ▸ h.loops⟩

theorem Seen.ends (h : s.Seen w) {f : LoopFrame} {fs : List LoopFrame} (hf : s.frames = f :: fs) :
    s.Over w := by
  refine ⟨h.toTold, fun hs => ?_, f, fs, f.mark, hf, ?_⟩
  · cases h.settled.symm.trans hs
  · rw [h.loops, hf]
    rfl

theorem Seen.begin (h : s.Seen w) (hw : w.request = none) (way : List Nat) :
    (s.begin way).Seen w :=
  (h.note (e := .started way) (if_pos (h.quiet hw))).congr rfl rfl rfl

theorem Seen.aim (h : s.Seen w) (hn : w.stranded = false) (way : List Nat) (i j : Nat) :
    (s.aim way i j).Seen w :=
  (h.note (e := .aimed way i j) (if_pos ⟨h.settled, hn⟩)).congr rfl rfl rfl

theorem Seen.jump (h : s.Seen w) (hn : w.stranded = false) (way : List Nat) (i j : Nat) :
    ((s.aim way i j).note (.jumped way i j)).Seen w :=
  (h.aim hn way i j).note (if_pos ⟨h.settled, hn⟩)

/-- After an action nothing waits, unless it was a request, which has no steps inside it run. -/
theorem Seen.perform (h : s.Seen w) (hw : w.request = none) (hn : w.stranded = false)
    {p : Program σ π} {step : String} {action : Action} {t : RunState σ π}
    {r : Except RunError Program.Outcome} (ha : p.perform step action s = (r, t)) :
    ∃ v, t.Seen v ∧ v.stranded = false ∧ ∀ o, r = .ok o → o.descend = true → v.request = none := by
  rcases Program.perform_cases ha with ⟨hs, -⟩ | ⟨control, hf, rfl, rfl⟩
  · obtain ⟨new, hl, hnew⟩ := hs.log
    refine ⟨w, ⟨⟨?_, h.request.trans hs.request.symm⟩, h.settled, ?_⟩, hn, fun _ _ _ => hw⟩
    · rw [hl]
      exact Watch.of_work (h.quiet hw) hnew h.log
    · rw [hs.frames]
      exact h.loops
  · have hloops : w.loops ≠ [] := by simpa [h.loops] using hf
    refine ⟨{ w with request := some control }, ⟨⟨?_, rfl⟩, h.settled, h.loops⟩, hn, ?_⟩
    · exact (Watch.of_cons h.log).trans (if_pos ⟨h.quiet hw, hloops⟩)
    · rintro _ ⟨⟩ hd
      cases hd

theorem Seen.push (h : s.Seen w) (hw : w.request = none) (hn : w.stranded = false)
    (way : List Nat) (step : String) (items : List Json) :
    ∃ v, (s.push way ⟨step, items, 0⟩).Between v ∧ v.stranded = false ∧ v.request = none ∧
      v.settled ≠ some .leaveLoop := by
  refine ⟨{ w with loops := ⟨items.length, 0⟩ :: w.loops },
    ⟨⟨(Watch.of_cons h.log).trans (if_pos (h.quiet hw)), h.request⟩, _, _, rfl, Nat.zero_le _, ?_⟩,
    hn, hw, by simp [h.settled]⟩
  rw [h.loops]

theorem Over.pop (h : s.Over w) : ∃ v, s.pop.Seen v ∧ v.stranded = w.request.isSome := by
  obtain ⟨f, fs, loop, hf, hl⟩ := h.loops
  have hc : w.settled = some .nextItem → loop.count ≤ loop.next :=
    fun hs => h.settled hs loop (by rw [hl]; rfl)
  refine ⟨⟨fs.map LoopFrame.mark, w.request, none, w.request.isSome⟩, ⟨⟨?_, h.request⟩, rfl, ?_⟩,
    rfl⟩
  · refine (Watch.of_cons h.log).trans ?_
    simp only [Watch.step, hl, if_pos hc]
  · rw [RunState.pop, hf]
    rfl

theorem Between.ends (h : s.Between w) (hc : s.currentItem? = none) : s.Over w := by
  obtain ⟨f, fs, hf, -, hl⟩ := h.loops
  refine ⟨h.toTold, fun _ loop hloop => ?_, f, fs, _, hf, hl⟩
  obtain rfl : loop = ⟨f.items.length, f.index⟩ := by simpa [hl] using hloop.symm
  refine List.getElem?_eq_none_iff.mp ?_
  cases hi : f.items[f.index]? with
  | none => rfl
  | some item => cases hc.symm.trans (currentItem?_eq_some_iff.mpr ⟨f, fs, hf, rfl, hi⟩)

theorem Between.beginTurn (h : s.Between w) (hw : w.request = none)
    (hs : w.settled ≠ some .leaveLoop) {k : Nat} {item : Json}
    (hc : s.currentItem? = some (k, item)) (way : List Nat) :
    ∃ v, (s.beginTurn way k item).Seen v ∧ v.stranded = w.stranded ∧ v.request = none := by
  obtain ⟨f, fs, hf, -, hl⟩ := h.loops
  obtain ⟨f', fs', hf', rfl, hi⟩ := currentItem?_eq_some_iff.mp hc
  cases hf.symm.trans hf'
  have hk := (List.getElem?_eq_some_iff.mp hi).1
  refine ⟨{ w with loops := f.mark :: fs.map LoopFrame.mark, settled := none },
    ⟨⟨(Watch.of_cons h.log).trans ?_, h.request⟩, rfl, ?_⟩, rfl, hw⟩
  · rw [Watch.step, hl]
    exact if_pos ⟨hw, hs, rfl, hk⟩
  · change _ = s.frames.map LoopFrame.mark
    rw [hf]
    rfl

theorem Seen.settle (h : s.Seen w) (hn : w.stranded = false) (hf : s.frames ≠ []) :
    ∃ v, s.settle.Told v ∧ v.loops = w.loops ∧ v.stranded = false ∧ v.request = none ∧
      v.settled = s.request := by
  cases hr : s.request with
  | none =>
    rw [settle_of_none hr]
    exact ⟨w, h.toTold, rfl, hn, h.request.trans hr, h.settled⟩
  | some control =>
    have hloops : w.loops ≠ [] := by simpa [h.loops] using hf
    rw [settle_of_some hr]
    refine ⟨{ w with request := none, settled := some control }, ⟨?_, rfl⟩, rfl, hn, rfl, rfl⟩
    exact (Watch.of_cons h.log).trans (if_pos ⟨h.request.trans hr, hloops, hn⟩)

/-- The loop goes on to its next item, whether or not it has been asked to. -/
theorem Seen.advance (h : s.Seen w) (hn : w.stranded = false) {f : LoopFrame}
    {fs : List LoopFrame} (hf : s.frames = f :: fs) (hi : f.index < f.items.length)
    (hstay : s.request ≠ some .leaveLoop) :
    ∃ v, s.settle.advance.Between v ∧ v.stranded = false ∧ v.request = none ∧
      v.settled ≠ some .leaveLoop := by
  obtain ⟨v, hv, hloops, hvn, hvq, hvs⟩ := h.settle hn (by simp [hf])
  refine ⟨v, ⟨⟨hv.log, hv.request⟩, f.move 1, fs, ?_, hi, ?_⟩, hvn, hvq, ?_⟩
  · rw [advance_frames, settle_frames, hf]
    rfl
  · rw [hloops, h.loops, hf]
    rfl
  · rw [hvs]
    exact hstay

/-- The loop that has been asked to end is over. -/
theorem Seen.leave (h : s.Seen w) (hn : w.stranded = false) {f : LoopFrame} {fs : List LoopFrame}
    (hf : s.frames = f :: fs) (hleave : s.request = some .leaveLoop) :
    ∃ v, s.settle.Over v ∧ v.stranded = false ∧ v.request = none := by
  obtain ⟨v, hv, hloops, hvn, hvq, hvs⟩ := h.settle hn (by simp [hf])
  refine ⟨v, ⟨hv, fun hnext => ?_, f, fs, f.mark, ?_, ?_⟩, hvn, hvq⟩
  · cases hnext.symm.trans (hvs.trans hleave)
  · rw [settle_frames]
    exact hf
  · rw [hloops, h.loops, hf]
    rfl

end RunState

def Call.Begins (c : Call) (w : Watch) (s : RunState σ π) : Prop :=
  match c with
  | .rest .. => s.Seen w ∧ w.stranded = false
  | .turns .. =>
    s.Between w ∧ w.stranded = false ∧ w.request = none ∧ w.settled ≠ some .leaveLoop
  | _ => s.Seen w ∧ w.stranded = false ∧ w.request = none

def Call.Ends (c : Call) (r : Except RunError (Option String)) (w : Watch)
    (s : RunState σ π) : Prop :=
  match c with
  | .turns .. => s.Over w ∧ ∀ v, r = .ok v → w.stranded = false ∧ w.request = none
  | _ => s.Seen w ∧ ∀ v, r = .ok v → w.stranded = false

namespace Call.Begins
variable {st : Step} {way : List Nat} {w : Watch} {s t : RunState σ π}

theorem block {steps : List Step} (hw : (Call.block steps way).Begins w s) :
    (Call.rest steps way 0).Begins w (s.note (.entered way)) := by
  obtain ⟨hs, hn, hq⟩ := hw
  exact ⟨hs.note (if_pos (hs.quiet hq)), hn⟩

theorem step {steps : List Step} {i : Nat} (hw : (Call.rest steps way i).Begins w s)
    (hq : s.request = none) : (Call.step st (way ++ [i])).Begins w s :=
  ⟨hw.1, hw.2, hw.1.request.trans hq⟩

theorem jump {steps : List Step} {i j : Nat} (hw : (Call.rest steps way i).Begins w s) :
    (Call.rest steps way j).Begins w ((s.aim way i j).note (.jumped way i j)) :=
  ⟨hw.1.jump hw.2 way i j, hw.2⟩

theorem once (hw : (Call.step st way).Begins w s) :
    (Call.body st way).Begins w (s.begin way) := by
  obtain ⟨hs, hn, hq⟩ := hw
  exact ⟨hs.begin hq way, hn, hq⟩

theorem each {expression : String} (hw : (Call.step st way).Begins w s) :
    (Call.loop st expression way).Begins w (s.begin way) :=
  hw.once

theorem inside (hw : (Call.body st way).Begins w s) {p : Program σ π} {o : Program.Outcome}
    (h : p.perform st.name st.action s = (.ok o, t)) (hd : o.descend = true) :
    ∃ v, (Call.block st.steps way).Begins v t := by
  obtain ⟨hs, hn, hq⟩ := hw
  obtain ⟨v, hv, hstranded, hrequest⟩ := hs.perform hq hn h
  exact ⟨v, hv, hstranded, hrequest o rfl hd⟩

theorem list {expression : String} (hw : (Call.loop st expression way).Begins w s)
    (items : List Json) :
    ∃ v, (Call.turns st way).Begins v
      ((s.startLoop way items).push way ⟨st.name, items, 0⟩) := by
  obtain ⟨hs, hn, hq⟩ := hw
  have hstart : (s.startLoop way items).Seen w := hs.congr rfl rfl rfl
  exact hstart.push hq hn way st.name items

theorem item (hw : (Call.turns st way).Begins w s) {k : Nat} {item : Json}
    (hc : s.currentItem? = some (k, item)) :
    ∃ v, (Call.body st way).Begins v (s.beginTurn way k item) := by
  obtain ⟨hs, hn, hq, hl⟩ := hw
  obtain ⟨v, hv, hstranded, hrequest⟩ := hs.beginTurn hq hl hc way
  exact ⟨v, hv, hstranded.trans hn, hrequest⟩

/-- A turn of a loop leads to the next, if its body keeps to what a body may do. -/
theorem turn (hw : (Call.turns st way).Begins w s) {k : Nat} {item : Json}
    (hc : s.currentItem? = some (k, item)) {r : Option String}
    (hb : ∀ v, (Call.body st way).Begins v (s.beginTurn way k item) →
      ∃ u, (Call.body st way).Ends (.ok r) u t)
    (hf : t.frames = s.frames) (hstay : t.request ≠ some .leaveLoop) :
    ∃ x, (Call.turns st way).Begins x (t.endTurn way k .completed s.context).settle.advance := by
  obtain ⟨v, hv⟩ := hw.item hc
  obtain ⟨u, hu, hend⟩ := hb v hv
  obtain ⟨f, fs, hf', hk, hi⟩ := RunState.currentItem?_eq_some_iff.mp hc
  have hturn : (t.endTurn way k .completed s.context).Seen u := hu.congr rfl rfl rfl
  have hlt : f.index < f.items.length := hk ▸ (List.getElem?_eq_some_iff.mp hi).1
  exact hturn.advance (hend r rfl) (hf.trans hf') hlt hstay

end Call.Begins

namespace Runs
open RunState
variable {p : Program σ π} {c : Call} {s t : RunState σ π}
  {r : Except RunError (Option String)}

theorem turns_request {step : Step} {way : List Nat} {v : Option String}
    (h : Runs p (.turns step way) s (.ok v) t) (hs : s.request = none) : t.request = none := by
  generalize hc : Call.turns step way = c at h
  generalize hr : (Except.ok v : Except RunError (Option String)) = r at h
  induction h with
  | ended => exact hs
  | torn => cases hr
  | left => exact settle_request _
  | turn _ _ _ _ _ ih => exact ih (settle_request _) hc hr
  | _ => cases hc

/-- The log of a call lets only events come that may come. -/
theorem watched (h : Runs p c s r t) {w : Watch} (hw : c.Begins w s) : ∃ v, c.Ends r v t := by
  induction h generalizing w with
  | block _ ih => exact ih hw.block
  | finished _ => exact ⟨w, hw.1, fun _ _ => hw.2⟩
  | skipped _ _ => exact ⟨w, hw.1, fun _ _ => hw.2⟩
  | failed _ hq _ ih =>
    obtain ⟨v, hv, -⟩ := ih (hw.step hq)
    exact ⟨v, hv, fun _ he => by cases he⟩
  | next _ hq _ _ ih ih' =>
    obtain ⟨v, hv, hn⟩ := ih (hw.step hq)
    exact ih' ⟨hv, hn _ rfl⟩
  | lost _ hq _ _ ih =>
    obtain ⟨v, hv, -⟩ := ih (hw.step hq)
    exact ⟨v, hv, fun _ he => by cases he⟩
  | stopped _ hq _ _ _ ih =>
    obtain ⟨v, hv, hn⟩ := ih (hw.step hq)
    exact ⟨v, hv.aim (hn _ rfl) _ _ _, fun _ he => by cases he⟩
  | jump _ hq _ _ _ _ ih ih' =>
    obtain ⟨v, hv, hn⟩ := ih (hw.step hq)
    exact ih' ⟨hv.jump (hn _ rfl) _ _ _, hn _ rfl⟩
  | once _ _ ih =>
    obtain ⟨v, hv, hend⟩ := ih hw.once
    exact ⟨v, hv.congr rfl rfl rfl, hend⟩
  | each _ _ ih =>
    obtain ⟨v, hv, hend⟩ := ih hw.each
    exact ⟨v, hv.congr rfl rfl rfl, hend⟩
  | refused h =>
    obtain ⟨v, hv, -, -⟩ := hw.1.perform hw.2.2 hw.2.1 h
    exact ⟨v, hv, fun _ he => by cases he⟩
  | alone h _ =>
    obtain ⟨v, hv, hstranded, -⟩ := hw.1.perform hw.2.2 hw.2.1 h
    exact ⟨v, hv, fun _ _ => hstranded⟩
  | inside h hd _ _ ih =>
    obtain ⟨v, hv⟩ := hw.inside h hd
    obtain ⟨u, hu, hend⟩ := ih hv
    exact ⟨u, hu, fun _ _ => hend _ rfl⟩
  | broken h hd _ _ ih =>
    obtain ⟨v, hv⟩ := hw.inside h hd
    obtain ⟨u, hu, -⟩ := ih hv
    exact ⟨u, hu, fun _ he => by cases he⟩
  | unread _ => exact ⟨w, hw.1, fun _ he => by cases he⟩
  | noList _ _ => exact ⟨w, hw.1, fun _ he => by cases he⟩
  | empty _ => exact ⟨w, hw.1.congr rfl rfl rfl, fun _ _ => hw.2.1⟩
  | list _ _ _ ih =>
    obtain ⟨v, hv⟩ := hw.list _
    obtain ⟨u, hu, hend⟩ := ih hv
    obtain ⟨x, hx, hstranded⟩ := hu.pop
    refine ⟨x, hx, fun v hr => ?_⟩
    rw [hstranded, (hend v hr).2]
    rfl
  | ended hc =>
    obtain ⟨hs, hn, hq, -⟩ := hw
    exact ⟨w, hs.ends hc, fun _ _ => ⟨hn, hq⟩⟩
  | @torn _ way s k _ _ t hc hb ih =>
    obtain ⟨v, hv⟩ := hw.item hc
    obtain ⟨u, hu, -⟩ := ih hv
    obtain ⟨f, fs, hf, -⟩ := hw.1.loops
    have hturn : (t.endTurn way k .failed s.context).Seen u := hu.congr rfl rfl rfl
    exact ⟨u, hturn.ends (hb.keeps.trans hf), fun _ he => by cases he⟩
  | @left _ way s k _ _ t hc hb hleave ih =>
    obtain ⟨v, hv⟩ := hw.item hc
    obtain ⟨u, hu, hend⟩ := ih hv
    obtain ⟨f, fs, hf, -⟩ := hw.1.loops
    have hturn : (t.endTurn way k .completed s.context).Seen u := hu.congr rfl rfl rfl
    obtain ⟨x, hx, hend⟩ := hturn.leave (hend _ rfl) (hb.keeps.trans hf) hleave
    exact ⟨x, hx, fun _ _ => hend⟩
  | turn hc hb hstay _ ih ih' =>
    obtain ⟨x, hx⟩ := hw.turn hc (fun _ => ih) hb.keeps hstay
    exact ih' hx

end Runs
end Workflow
