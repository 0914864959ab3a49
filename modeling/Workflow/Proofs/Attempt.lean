import Workflow.Attempt
import Mathlib.Order.Defs.Unbundled

/-!
# What attempts do

An attempt is applied to a state, and its parts are applied one after the other until one fails. A
contract bounds an attempt as a whole: how it changes the state, even when it fails, what it may
give and how it may fail. A contract holds of an attempt if it holds of its parts.
-/
namespace Workflow.Attempt
variable {σ τ ε δ α β : Type}

theorem bind_apply (a : Attempt σ ε α) (f : α → Attempt σ ε β) (s : σ) :
    (a >>= f) s = match a s with
      | (.ok v, t) => f v t
      | (.error e, t) => (.error e, t) := by
  change (ExceptT.bindCont f (a s).1) (a s).2 = _
  rcases a s with ⟨_ | _, t⟩ <;> rfl

theorem map_apply (f : α → β) (a : Attempt σ ε α) (s : σ) :
    (f <$> a) s = ((a s).1.map f, (a s).2) := by
  rw [map_eq_pure_bind, bind_apply]
  rcases a s with ⟨_ | _, t⟩ <;> rfl

theorem bind_of_ok {a : Attempt σ ε α} {f : α → Attempt σ ε β} {s t : σ} {v : α}
    (h : a s = (.ok v, t)) : (a >>= f) s = f v t := by
  rw [bind_apply, h]

theorem bind_of_error {a : Attempt σ ε α} {f : α → Attempt σ ε β} {s t : σ} {e : ε}
    (h : a s = (.error e, t)) : (a >>= f) s = (.error e, t) := by
  rw [bind_apply, h]

theorem modify_bind (f : σ → σ) (g : PUnit → Attempt σ ε α) (s : σ) :
    ((modify f : Attempt σ ε PUnit) >>= g) s = g ⟨⟩ (f s) := rfl

theorem get_bind (g : σ → Attempt σ ε α) (s : σ) :
    ((get : Attempt σ ε σ) >>= g) s = g s s := rfl

theorem lift_bind (a : StateM σ α) (f : α → Attempt σ ε β) (s : σ) :
    ((liftM a : Attempt σ ε α) >>= f) s = f (a s).1 (a s).2 := rfl

theorem pure_apply (v : α) (s : σ) : (pure v : Attempt σ ε α) s = (.ok v, s) := rfl

theorem throw_apply (e : ε) (s : σ) : (throw e : Attempt σ ε α) s = (.error e, s) := rfl

theorem tryCatch_apply (a : Attempt σ ε α) (f : ε → Attempt σ ε α) (s : σ) :
    (tryCatch a f) s = match a s with
      | (.ok v, t) => (.ok v, t)
      | (.error e, t) => f e t := by
  change ((fun r : Except ε α => match r with
    | .ok v => (pure (.ok v) : StateM σ (Except ε α))
    | .error e => f e) (a s).1) (a s).2 = _
  rcases a s with ⟨_ | _, t⟩ <;> rfl

theorem bind_cases {a : Attempt σ ε α} {f : α → Attempt σ ε β} {s t : σ} {r : Except ε β}
    (h : (a >>= f) s = (r, t)) :
    (∃ e, a s = (.error e, t) ∧ r = .error e) ∨ ∃ v u, a s = (.ok v, u) ∧ f v u = (r, t) := by
  rw [bind_apply] at h
  rcases ha : a s with ⟨e | v, u⟩
  · rw [ha] at h
    cases h
    exact .inl ⟨e, rfl, rfl⟩
  · rw [ha] at h
    exact .inr ⟨v, u, rfl, h⟩

theorem alter_cases {f : σ → Except ε (α × σ)} {s t : σ} {r : Except ε α}
    (h : Attempt.alter f s = (r, t)) :
    (∃ e, f s = .error e ∧ r = .error e ∧ t = s) ∨ ∃ v, f s = .ok (v, t) ∧ r = .ok v := by
  unfold Attempt.alter at h
  cases hf : f s with
  | ok x =>
    simp only [hf] at h
    cases h
    exact .inr ⟨_, rfl, rfl⟩
  | error e =>
    simp only [hf] at h
    cases h
    exact .inl ⟨e, rfl, rfl, rfl⟩

theorem alter_of_ok {f : σ → Except ε (α × σ)} {s t : σ} {v : α} (h : f s = .ok (v, t)) :
    Attempt.alter f s = (.ok v, t) := by
  rw [Attempt.alter, h]

theorem alter_of_error {f : σ → Except ε (α × σ)} {s : σ} {e : ε} (h : f s = .error e) :
    Attempt.alter f s = (.error e, s) := by
  rw [Attempt.alter, h]

theorem ok_bind_cases {a : Attempt σ ε α} {f : α → Attempt σ ε β} {s t : σ} {w : β}
    (h : (a >>= f) s = (.ok w, t)) : ∃ v u, a s = (.ok v, u) ∧ f v u = (.ok w, t) := by
  obtain ⟨e, -, hr⟩ | hok := bind_cases h
  · cases hr
  · exact hok

theorem ok_alter_cases {f : σ → Except ε (α × σ)} {s t : σ} {v : α}
    (h : Attempt.alter f s = (.ok v, t)) : f s = .ok (v, t) := by
  obtain ⟨e, -, hr, -⟩ | ⟨w, hf, hr⟩ := alter_cases h
  · cases hr
  · cases hr
    exact hf

theorem ok_of_map {x : Except ε α} {f : α → β} {b : β} (h : x.map f = .ok b) :
    ∃ a, x = .ok a ∧ f a = b := by
  cases x with
  | error e => cases h
  | ok a => exact ⟨a, rfl, Except.ok.inj h⟩

theorem ok_of_mapError {x : Except ε α} {f : ε → δ} {a : α} (h : x.mapError f = .ok a) :
    x = .ok a := by
  cases x with
  | error e => cases h
  | ok b => exact congrArg Except.ok (Except.ok.inj h)

theorem ok_of_bind {x : Except ε α} {f : α → Except ε β} {b : β} (h : (x >>= f) = .ok b) :
    ∃ a, x = .ok a ∧ f a = .ok b := by
  cases x with
  | error e => cases h
  | ok a => exact ⟨a, rfl, h⟩

theorem exists_of_mapError {f : ε → δ} {r : Except ε α} {e : δ} (h : r.mapError f = .error e) :
    ∃ cause, e = f cause := by
  cases r with
  | ok v => cases h
  | error cause =>
    cases h
    exact ⟨cause, rfl⟩

theorem tolerate_eq (a : Attempt σ ε α) (s : σ) :
    a.tolerate s = ((a s).1.toOption, (a s).2) := by
  unfold tolerate
  rcases a s with ⟨_ | _, _⟩ <;> rfl

theorem tolerate_apply (a : Attempt σ ε α) (s : σ) : (a.tolerate s).2 = (a s).2 := by
  rw [tolerate_eq]

/-- Every run of the attempt relates the state before it to the state after it, gives what is
wanted, and fails only in a way that is foreseen. -/
structure Meets (R : σ → σ → Prop) (Q : α → Prop) (E : ε → Prop) (a : Attempt σ ε α) : Prop where
  changes : ∀ s, R s (a s).2
  gives : ∀ s v, (a s).1 = .ok v → Q v
  fails : ∀ s e, (a s).1 = .error e → E e

namespace Meets
variable {R : σ → σ → Prop} {Q : α → Prop} {Q' : β → Prop} {E : ε → Prop}

theorem pure [Std.Refl R] {v : α} (h : Q v) : Meets R Q E (pure v : Attempt σ ε α) where
  changes s := refl_of R s
  gives _ _ hv := by cases hv; exact h
  fails _ _ he := by cases he

theorem throw [Std.Refl R] {e : ε} (h : E e) : Meets R Q E (throw e : Attempt σ ε α) where
  changes s := refl_of R s
  gives _ _ hv := by cases hv
  fails _ _ he := by cases he; exact h

theorem look [Std.Refl R] {f : σ → Except ε α} (hq : ∀ s v, f s = .ok v → Q v)
    (he : ∀ s e, f s = .error e → E e) : Meets R Q E (Attempt.look f) where
  changes s := refl_of R s
  gives := hq
  fails := he

theorem alter [Std.Refl R] {f : σ → Except ε (α × σ)}
    (hr : ∀ s v t, f s = .ok (v, t) → R s t ∧ Q v) (he : ∀ s e, f s = .error e → E e) :
    Meets R Q E (Attempt.alter f) := by
  have cut (s : σ) : (∃ x, f s = .ok x ∧ Attempt.alter f s = (.ok x.1, x.2)) ∨
      ∃ e, f s = .error e ∧ Attempt.alter f s = (.error e, s) := by
    unfold Attempt.alter
    cases f s with
    | ok x => exact .inl ⟨x, rfl, rfl⟩
    | error e => exact .inr ⟨e, rfl, rfl⟩
  refine ⟨fun s => ?_, fun s v hv => ?_, fun s e hv => ?_⟩
  · rcases cut s with ⟨x, hx, h⟩ | ⟨e, _, h⟩ <;> rw [h]
    · exact (hr s x.1 x.2 hx).1
    · exact refl_of R s
  · rcases cut s with ⟨x, hx, h⟩ | ⟨e, _, h⟩ <;> rw [h] at hv <;> cases hv
    exact (hr s x.1 x.2 hx).2
  · rcases cut s with ⟨x, _, h⟩ | ⟨e', hf, h⟩ <;> rw [h] at hv <;> cases hv
    exact he s e hf

theorem modify {f : σ → σ} (h : ∀ s, R s (f s)) {Q : PUnit → Prop} (hq : Q ⟨⟩) :
    Meets R Q E (modify f : Attempt σ ε PUnit) where
  changes := h
  gives _ _ _ := hq
  fails _ _ he := by cases he

theorem get [Std.Refl R] : Meets R (fun _ => True) E (get : Attempt σ ε σ) where
  changes s := refl_of R s
  gives _ _ _ := trivial
  fails _ _ he := by cases he

theorem lift {a : StateM σ α} (h : ∀ s, R s (a s).2) :
    Meets R (fun _ => True) E (liftM a : Attempt σ ε α) where
  changes := h
  gives _ _ _ := trivial
  fails _ _ he := by cases he

theorem mapError {a : Attempt σ ε α} {f : ε → δ} {E' : δ → Prop} (h : Meets R Q E a)
    (hf : ∀ e, E e → E' (f e)) : Meets R Q E' (a.mapError f) := by
  refine ⟨h.changes, fun s v hv => ?_, fun s e he => ?_⟩
  · change (a s).1.mapError f = .ok v at hv
    cases ha : (a s).1 <;> rw [ha] at hv <;> cases hv
    exact h.gives s _ ha
  · change (a s).1.mapError f = .error e at he
    cases ha : (a s).1 <;> rw [ha] at he <;> cases he
    exact hf _ (h.fails s _ ha)

theorem tryCatch [IsTrans σ R] {a : Attempt σ ε α} {f : ε → Attempt σ ε α} {E' : ε → Prop}
    (ha : Meets R Q E a) (hf : ∀ e, E e → Meets R Q E' (f e)) :
    Meets R Q E' (tryCatch a f) := by
  have cut (s : σ) : (∃ v, (a s).1 = .ok v ∧ (MonadExcept.tryCatch a f) s = (.ok v, (a s).2)) ∨
      ∃ e, (a s).1 = .error e ∧ (MonadExcept.tryCatch a f) s = f e (a s).2 := by
    rw [tryCatch_apply]
    rcases h : a s with ⟨e | v, t⟩
    · exact .inr ⟨e, rfl, rfl⟩
    · exact .inl ⟨v, rfl, rfl⟩
  refine ⟨fun s => ?_, fun s w hw => ?_, fun s e he => ?_⟩
  · rcases cut s with ⟨v, _, h⟩ | ⟨e, hv, h⟩
    · rw [h]
      exact ha.changes s
    · rw [h]
      exact trans_of R (ha.changes s) ((hf e (ha.fails s e hv)).changes _)
  · rcases cut s with ⟨v, hv, h⟩ | ⟨e, he, h⟩ <;> rw [h] at hw
    · cases hw
      exact ha.gives s w hv
    · exact (hf e (ha.fails s e he)).gives _ w hw
  · rcases cut s with ⟨v, hv, h⟩ | ⟨e', he', h⟩ <;> rw [h] at he
    · cases he
    · exact (hf e' (ha.fails s e' he')).fails _ e he

theorem bind [IsTrans σ R] {a : Attempt σ ε α} {f : α → Attempt σ ε β} (ha : Meets R Q E a)
    (hf : ∀ v, Q v → Meets R Q' E (f v)) : Meets R Q' E (a >>= f) := by
  have cut (s : σ) : (∃ v, (a s).1 = .ok v ∧ (a >>= f) s = f v (a s).2) ∨
      ∃ e, (a s).1 = .error e ∧ (a >>= f) s = (.error e, (a s).2) := by
    rw [bind_apply]
    rcases h : a s with ⟨e | v, t⟩
    · exact .inr ⟨e, rfl, rfl⟩
    · exact .inl ⟨v, rfl, rfl⟩
  refine ⟨fun s => ?_, fun s w hw => ?_, fun s e he => ?_⟩
  · rcases cut s with ⟨v, hv, h⟩ | ⟨e, _, h⟩
    · rw [h]
      exact trans_of R (ha.changes s) ((hf v (ha.gives s v hv)).changes _)
    · rw [h]
      exact ha.changes s
  · rcases cut s with ⟨v, hv, h⟩ | ⟨e, _, h⟩ <;> rw [h] at hw
    · exact (hf v (ha.gives s v hv)).gives _ w hw
    · cases hw
  · rcases cut s with ⟨v, hv, h⟩ | ⟨e', he', h⟩ <;> rw [h] at he
    · exact (hf v (ha.gives s v hv)).fails _ e he
    · cases he
      exact ha.fails s _ he'

end Meets
end Workflow.Attempt
