import Workflow.Proofs.Attempt
import Workflow.Proofs.Store.Data
import Workflow.Storage.Backend

/-!
# Where a backend stores

A backend writes and deletes where it is asked to. What is made of its operations, even if some of
them fail, then keeps to the namespaces that it is about; and it leaves alone what all of its
operations leave alone.
-/
namespace Workflow
open Attempt
variable {σ α β : Type}

/-- A backend stores values by namespace and key: it writes and deletes where it is asked to, and
looking at it changes nothing. -/
structure Backend.Keeps (b : Backend σ) (stored : σ → String → String → Option Json) : Prop where
  save : ∀ ns key v x ns' key', ¬(ns' = ns ∧ key' = key) →
    stored (b.save ns key v x).2 ns' key' = stored x ns' key'
  delete : ∀ ns key x ns' key', ¬Within ns key ns' key' →
    stored (b.delete ns key x).2 ns' key' = stored x ns' key'
  load : ∀ ns key x, stored (b.load ns key x).2 = stored x
  namespaces : ∀ x, stored (b.namespaces x).2 = stored x

/-- The backend in memory stores what its state holds. -/
theorem Backend.memory_keeps : Backend.memory.Keeps Values.value? where
  save ns key v x ns' key' h := (Values.value?_put x ns key v ns' key').trans (if_neg h)
  delete _ _ _ _ _ h := Values.value?_remove h
  load _ _ _ := rfl
  namespaces _ := rfl

/-- What is done relates the state before it to the state after it. -/
def Does (R : σ → σ → Prop) (a : StateM σ α) : Prop := ∀ x, R x (a x).2

namespace Does
variable {R : σ → σ → Prop}

theorem pure [Std.Refl R] (v : α) : Does R (Pure.pure v : StateM σ α) := fun x => refl_of R x

theorem bind [IsTrans σ R] {a : StateM σ α} {f : α → StateM σ β} (ha : Does R a)
    (hf : ∀ v, Does R (f v)) : Does R (a >>= f) :=
  fun x => trans_of R (ha x) (hf _ _)

theorem tolerate {ε : Type} {a : Attempt σ ε α} (h : ∀ x, R x (a x).2) :
    Does R (Attempt.tolerate a) := by
  intro x
  rw [tolerate_apply]
  exact h x

end Does

/-- All that a backend does in a namespace relates the state before it to the state after it. -/
structure Backend.DoesIn (b : Backend σ) (R : σ → σ → Prop) (ns : String) : Prop where
  save : ∀ key v x, R x (b.save ns key v x).2
  delete : ∀ key x, R x (b.delete ns key x).2
  load : ∀ key x, R x (b.load ns key x).2

namespace Backend.DoesIn
variable {b : Backend σ} {R : σ → σ → Prop} [Std.Refl R] [IsTrans σ R] {ns : String}

theorem saveMembers (h : b.DoesIn R ns) (members : List (String × Json)) :
    Does R (b.saveMembers ns members) := by
  induction members with
  | nil => exact .pure _
  | cons e members ih =>
    have hsave : Does R (b.trySave ns e.1 e.2) :=
      .bind (.tolerate (h.save e.1 e.2)) fun _ => .pure _
    exact hsave.bind fun _ => ih.bind fun _ => .pure _

theorem deleteKeys (h : b.DoesIn R ns) (keys : List String) : Does R (b.deleteKeys ns keys) := by
  induction keys with
  | nil => exact .pure _
  | cons k keys ih =>
    have hdelete : Does R (Attempt.tolerate (b.delete ns (some k))) := .tolerate (h.delete (some k))
    exact hdelete.bind fun _ => ih.bind fun _ => .pure _

theorem sync (h : b.DoesIn R ns) (values : Table Json) : Does R (b.sync ns values) := by
  unfold Backend.sync
  split
  · exact .bind (.tolerate (h.delete none)) fun _ => .pure _
  · refine .bind (h.saveMembers _) fun saved => .bind (.tolerate (h.load none)) ?_
    intro loaded
    split
    · exact .pure _
    · exact .bind (h.deleteKeys _) fun _ => .pure _
    · exact .pure _

theorem syncAll {spaces : List (String × Table Json)}
    (h : ∀ ns ∈ spaces.map Prod.fst, b.DoesIn R ns) : Does R (b.syncAll spaces) := by
  induction spaces with
  | nil => exact .pure _
  | cons e spaces ih =>
    have hsync : Does R (b.sync e.1 e.2) := (h e.1 List.mem_cons_self).sync e.2
    refine hsync.bind fun _ => .bind (ih fun ns hns => ?_) fun _ => .pure _
    exact h ns (List.mem_cons_of_mem e.1 hns)

end Backend.DoesIn

/-- What is stored is the same, but at certain places. -/
def SameBut (stored : σ → String → String → Option Json) (P : String → String → Prop)
    (x y : σ) : Prop :=
  ∀ ns key, ¬P ns key → stored y ns key = stored x ns key

instance (stored : σ → String → String → Option Json) (P : String → String → Prop) :
    Std.Refl (SameBut stored P) where
  refl _ _ _ _ := rfl

instance (stored : σ → String → String → Option Json) (P : String → String → Prop) :
    IsTrans σ (SameBut stored P) where
  trans _ _ _ h k ns key hp := (k ns key hp).trans (h ns key hp)

/-- What is done leaves what is stored alone, but at certain places. -/
def Leaves (stored : σ → String → String → Option Json) (P : String → String → Prop)
    (a : StateM σ α) : Prop :=
  ∀ x ns key, ¬P ns key → stored (a x).2 ns key = stored x ns key

namespace Leaves
variable {stored : σ → String → String → Option Json} {P : String → String → Prop}

theorem pure (v : α) : Leaves stored P (Pure.pure v : StateM σ α) :=
  Does.pure (R := SameBut stored P) v

theorem bind {a : StateM σ α} {f : α → StateM σ β} (ha : Leaves stored P a)
    (hf : ∀ v, Leaves stored P (f v)) : Leaves stored P (a >>= f) :=
  Does.bind (R := SameBut stored P) ha hf

theorem tolerate {ε : Type} {a : Attempt σ ε α}
    (h : ∀ x ns key, ¬P ns key → stored (a x).2 ns key = stored x ns key) :
    Leaves stored P (Attempt.tolerate a) :=
  Does.tolerate (R := SameBut stored P) h

end Leaves

namespace Backend.Keeps
variable {b : Backend σ} {stored : σ → String → String → Option Json}
  {P : String → String → Prop}

theorem doesIn (hb : b.Keeps stored) {ns : String} (h : ∀ key, P ns key) :
    b.DoesIn (SameBut stored P) ns where
  save key v x ns' key' hp := by
    apply hb.save
    rintro ⟨rfl, -⟩
    exact hp (h key')
  delete key x ns' key' hp := by
    apply hb.delete
    rintro ⟨rfl, -⟩
    exact hp (h key')
  load key x ns' key' _ := congrFun₂ (hb.load ns key x) ns' key'

theorem syncAll_leaves (hb : b.Keeps stored) {spaces : List (String × Table Json)}
    (h : ∀ ns ∈ spaces.map Prod.fst, ∀ key, P ns key) : Leaves stored P (b.syncAll spaces) :=
  DoesIn.syncAll fun ns hns => hb.doesIn (h ns hns)

theorem loadSpace_leaves (hb : b.Keeps stored) (ns : String) :
    Leaves stored P (b.loadSpace ns) := by
  refine .bind (.tolerate ?_) fun _ => .pure _
  exact fun x ns' key' _ => congrFun₂ (hb.load ns none x) ns' key'

theorem tryDelete_leaves (hb : b.Keeps stored) {ns : String} {key : Option String}
    (h : ∀ ns' key', Within ns key ns' key' → P ns' key') :
    Leaves stored P (b.tryDelete ns key) := by
  refine .bind (.tolerate ?_) fun _ => .pure _
  exact fun x ns' key' hp => hb.delete ns key x ns' key' fun hw => hp (h ns' key' hw)

end Backend.Keeps

def SameView (view : σ → β) (x y : σ) : Prop := view y = view x

instance (view : σ → β) : Std.Refl (SameView view) where
  refl _ := rfl

instance (view : σ → β) : IsTrans σ (SameView view) where
  trans _ _ _ h k := Eq.trans k h

/-- A backend works beside what is looked at. -/
structure Backend.Spares (b : Backend σ) (view : σ → β) : Prop where
  save : ∀ ns key v x, view (b.save ns key v x).2 = view x
  delete : ∀ ns key x, view (b.delete ns key x).2 = view x
  load : ∀ ns key x, view (b.load ns key x).2 = view x
  namespaces : ∀ x, view (b.namespaces x).2 = view x

namespace Backend.Spares
variable {b : Backend σ} {view : σ → β}

theorem doesIn (hb : b.Spares view) (ns : String) : b.DoesIn (SameView view) ns where
  save := hb.save ns
  delete := hb.delete ns
  load := hb.load ns

theorem syncAll (hb : b.Spares view) (spaces : List (String × Table Json)) :
    Does (SameView view) (b.syncAll spaces) :=
  DoesIn.syncAll fun ns _ => hb.doesIn ns

theorem tryDelete (hb : b.Spares view) (ns : String) (key : Option String) :
    Does (SameView view) (b.tryDelete ns key) :=
  .bind (.tolerate (hb.delete ns key)) fun _ => .pure _

theorem tryNamespaces (hb : b.Spares view) : Does (SameView view) b.tryNamespaces :=
  .bind (.tolerate hb.namespaces) fun _ => .pure _

theorem loadSpace (hb : b.Spares view) (ns : String) : Does (SameView view) (b.loadSpace ns) :=
  .bind (.tolerate (hb.load ns none)) fun _ => .pure _

end Backend.Spares
end Workflow
