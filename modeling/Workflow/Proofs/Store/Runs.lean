import Workflow.Proofs.Store.Objects

/-!
# Runs of the store

In a run calls are made one after the other, each by an actor of its own. What happens between
calls, new policies and schemas or the passing of time, is aside of what the store holds. History
only grows, by the snapshots that are taken, and their numbers are those of the order in which they
are taken.
-/
namespace Workflow
variable {σ : Type}

/-- A call of an actor, and the store that it is made to. -/
structure StoreStep (σ : Type) where
  before : Store σ
  actor : Actor
  call : StoreCall

namespace StoreStep

def answer (env : Environment σ) (step : StoreStep σ) : Except StoreError StoreAnswer :=
  (step.call.perform env step.actor step.before).1

def after (env : Environment σ) (step : StoreStep σ) : Store σ :=
  (step.call.perform env step.actor step.before).2

theorem perform_eq (env : Environment σ) (step : StoreStep σ) :
    step.call.perform env step.actor step.before = (step.answer env, step.after env) := rfl

end StoreStep

namespace Store

structure Fresh (s : Store σ) : Prop where
  data : s.data = .empty
  history : s.history = []

/-- The second store holds what the first one holds, and has the same outside. -/
structure Aside (s t : Store σ) : Prop where
  data : t.data = s.data
  history : t.history = s.history
  outside : t.outside = s.outside

/-- The steps of a run from one store to another. -/
inductive Run (env : Environment σ) (s : Store σ) : List (StoreStep σ) → Store σ → Prop
  | start : Run env s [] s
  | call {steps} {step : StoreStep σ} : Run env s steps step.before →
      Run env s (steps ++ [step]) (step.after env)
  | aside {steps t u} : Run env s steps t → Aside t u → Run env s steps u

namespace Run
variable {env : Environment σ} {s t u : Store σ} {steps later : List (StoreStep σ)}

theorem trans (h : Run env s steps t) (k : Run env t later u) : Run env s (steps ++ later) u := by
  induction k with
  | start =>
    rw [List.append_nil]
    exact h
  | call _ ih =>
    rw [← List.append_assoc]
    exact ih.call
  | aside _ ha ih => exact ih.aside ha

theorem split {step : StoreStep σ} (h : Run env s (steps ++ step :: later) u) :
    Run env s steps step.before ∧ Run env (step.after env) later u := by
  generalize hall : steps ++ step :: later = all at h
  induction h generalizing later with
  | start => simp at hall
  | @call _ last h ih =>
    rcases List.eq_nil_or_concat later with rfl | ⟨init, final, rfl⟩
    · obtain ⟨rfl, hlast⟩ := List.append_inj' hall rfl
      obtain rfl := List.singleton_inj.mp hlast
      exact ⟨h, .start⟩
    · rw [List.concat_eq_append] at hall ⊢
      rw [← List.cons_append, ← List.append_assoc] at hall
      obtain ⟨hinit, hlast⟩ := List.append_inj' hall rfl
      obtain rfl := List.singleton_inj.mp hlast
      have hsplit := ih hinit
      exact ⟨hsplit.1, hsplit.2.call⟩
  | aside _ ha ih =>
    have hsplit := ih hall
    exact ⟨hsplit.1, hsplit.2.aside ha⟩

theorem cons (step : StoreStep σ) (h : Run env (step.after env) later t) :
    Run env step.before (step :: later) t :=
  trans (.call .start) h

/-- What calls keep, if they are of some kind, and what does not depend on anything aside, runs of
such calls keep. -/
theorem keeps {P : Store σ → Prop} {Q : StoreStep σ → Prop}
    (hcall : ∀ step, Q step → P step.before → P (step.after env))
    (haside : ∀ s t, Aside s t → P s → P t) (h : Run env s steps t) (hq : ∀ step ∈ steps, Q step)
    (hs : P s) : P t := by
  induction h with
  | start => exact hs
  | @call steps step _ ih =>
    apply hcall step
    · exact hq step (by simp)
    · exact ih fun step hstep => hq step (by simp [hstep])
  | aside _ ha ih => exact haside _ _ ha (ih hq)

end Run

/-- A store to which nothing was done yet, and which asks nobody for permission. -/
def blank (x : σ) : Store σ :=
  ⟨.empty, [], .disabled, .empty, .empty Trail.defaultCapacity, default, default, x⟩

theorem blank_fresh (x : σ) : (blank x).Fresh := ⟨rfl, rfl⟩

/-- The steps of calls that are made one after the other, and the store that they leave. -/
def follow (env : Environment σ) (s : Store σ) :
    List (Actor × StoreCall) → List (StoreStep σ) × Store σ
  | [] => ([], s)
  | (actor, call) :: calls =>
    let step : StoreStep σ := ⟨s, actor, call⟩
    let rest := follow env (step.after env) calls
    (step :: rest.1, rest.2)

theorem follow_run (env : Environment σ) (s : Store σ) (calls : List (Actor × StoreCall)) :
    Run env s (follow env s calls).1 (follow env s calls).2 := by
  induction calls generalizing s with
  | nil => exact .start
  | cons request calls ih => exact .cons ⟨s, request.1, request.2⟩ (ih _)

theorem follow_cons {env : Environment σ} {s t : Store σ} {actor : Actor} {call : StoreCall}
    {r : Except StoreError StoreAnswer} (h : call.perform env actor s = (r, t))
    (calls : List (Actor × StoreCall)) :
    (follow env s ((actor, call) :: calls)).2 = (follow env t calls).2 := by
  have hafter : StoreStep.after env ⟨s, actor, call⟩ = t := congrArg Prod.snd h
  rw [follow, hafter]

theorem mem_follow {env : Environment σ} {s : Store σ} {calls : List (Actor × StoreCall)}
    {step : StoreStep σ} (h : step ∈ (follow env s calls).1) : (step.actor, step.call) ∈ calls := by
  induction calls generalizing s with
  | nil => cases h
  | cons request calls ih =>
    rcases List.mem_cons.mp h with rfl | h
    · exact List.mem_cons_self
    · exact List.mem_cons_of_mem request (ih h)

end Store

def StoreCall.taken? : StoreCall → Except StoreError StoreAnswer → Option Nat
  | .snapshot _, .ok (.number id) => some id
  | _, _ => none

def StoreStep.taken? (env : Environment σ) (step : StoreStep σ) : Option Nat :=
  step.call.taken? (step.answer env)

namespace Store
variable {env : Environment σ} {actor : Actor} {call : StoreCall} {s t u : Store σ}
  {r : Except StoreError StoreAnswer}

theorem loadAll_history {b : Backend σ} {spaces : List String} {n : Nat}
    (h : loadAll b spaces s = (.ok n, t)) : t.history = s.history := by
  induction spaces generalizing s n with
  | nil =>
    cases h
    rfl
  | cons ns spaces ih =>
    rw [loadAll, onOutside_bind] at h
    cases hload : (b.loadSpace ns s.outside).1 with
    | none =>
      simp only [hload] at h
      exact (ih h).trans rfl
    | some values =>
      simp only [hload] at h
      rw [Attempt.modify_bind] at h
      obtain ⟨e, -, he⟩ | ⟨m, v, hrest, h⟩ := Attempt.bind_cases h
      · cases he
      · cases h
        exact (ih hrest).trans rfl

/-- A call that takes a snapshot puts it at the end of history, with the next number; other calls
leave history as it is. -/
theorem perform_history (h : call.perform env actor s = (r, t)) :
    (∃ ns, call = .snapshot ns ∧ r = .ok (.number (s.history.length + 1)) ∧
        t.history = s.history ++ [s.picture ns]) ∨
      call.taken? r = none ∧ t.history = s.history := by
  cases StoreCall.perform_ends h with
  | failed hn => exact .inr ⟨by cases call <;> rfl, hn.history⟩
  | kept _ hn => exact .inr ⟨rfl, hn.history⟩
  | set hn => exact .inr ⟨rfl, by simpa using hn.history⟩
  | read hn => exact .inr ⟨rfl, hn.history⟩
  | readSpace hn => exact .inr ⟨rfl, hn.history⟩
  | delete hn hd => exact .inr ⟨rfl, (dropped_elsewhere hd).history.trans hn.history⟩
  | undeleted hn hd => exact .inr ⟨rfl, (dropped_elsewhere hd).history.trans hn.history⟩
  | contains hn => exact .inr ⟨rfl, hn.history⟩
  | keys => exact .inr ⟨rfl, rfl⟩
  | append _ hn => exact .inr ⟨rfl, hn.history⟩
  | merge hn => exact .inr ⟨rfl, by simpa using hn.history⟩
  | snapshot hn => exact .inl ⟨_, rfl, rfl, hn.history⟩
  | unknown _ hn => exact .inr ⟨rfl, hn.history⟩
  | restore _ hn => exact .inr ⟨rfl, hn.history⟩
  | unwritten hw hn => exact .inr ⟨rfl, hn.history.trans (writePayload_cases hw).history⟩
  | savePayload hw hn =>
    have hwritten := (writePayload_cases hw).history
    exact .inr ⟨rfl, by simpa [hwritten] using hn.history⟩
  | payload hc hu _ hn =>
    refine .inr ⟨?_, hn.history.trans hu.history⟩
    rcases hc with rfl | rfl <;> rfl
  | unlisted hc _ hl hn =>
    refine .inr ⟨?_, hn.history.trans (storedSpaces_elsewhere hl).history⟩
    rcases hc with rfl | rfl <;> rfl
  | save _ hl hsync hn =>
    have hlisted := trans_of Elsewhere (storedSpaces_elsewhere hl) (onOutside_elsewhere hsync)
    exact .inr ⟨rfl, hn.history.trans hlisted.history⟩
  | load _ hl hload hn =>
    have hloaded := (loadAll_history hload).trans (storedSpaces_elsewhere hl).history
    exact .inr ⟨rfl, hn.history.trans hloaded⟩
  | deleteStored _ hd hn =>
    exact .inr ⟨rfl, hn.history.trans (onOutside_elsewhere hd).history⟩

namespace Run
variable {steps : List (StoreStep σ)}

/-- What is in history stays there. -/
theorem history_prefix (h : Run env s steps t) : s.history <+: t.history := by
  apply h.keeps (P := fun t => s.history <+: t.history) (Q := fun _ => True)
  · intro step _ hs
    obtain ⟨ns, -, -, ht⟩ | ⟨-, ht⟩ := perform_history (step.perform_eq env)
    · rw [ht]
      exact hs.trans (List.prefix_append _ _)
    · rw [ht]
      exact hs
  · intro s t ha hs
    rw [ha.history]
    exact hs
  · exact fun _ _ => trivial
  · exact List.prefix_refl _

/-- The numbers of snapshots are those that follow the length of history. -/
theorem taken_eq (h : Run env s steps t) :
    ∃ n, t.history.length = s.history.length + n ∧
      steps.filterMap (·.taken? env) = List.range' (s.history.length + 1) n := by
  induction h with
  | start => exact ⟨0, rfl, rfl⟩
  | @call steps step _ ih =>
    obtain ⟨n, hn, htaken⟩ := ih
    rw [List.filterMap_append, htaken]
    obtain ⟨ns, hcall, hr, ht⟩ | ⟨hnone, ht⟩ := perform_history (step.perform_eq env)
    · refine ⟨n + 1, ?_, ?_⟩
      · rw [ht, List.length_append, hn]
        rfl
      · have htake : step.taken? env = some (s.history.length + 1 + n) := by
          rw [StoreStep.taken?, hcall, hr, hn]
          simp [StoreCall.taken?]
          omega
        rw [List.range'_concat]
        simp [htake]
    · refine ⟨n, by rw [ht, hn], ?_⟩
      have hskip : step.taken? env = none := hnone
      simp [hskip]
  | aside _ ha ih =>
    obtain ⟨n, hn, htaken⟩ := ih
    exact ⟨n, by rw [ha.history, hn], htaken⟩

end Run
end Store
end Workflow
