import Workflow.Proofs.Storage.Backend
import Workflow.Store.Durable
import Workflow.Store.Payload

/-!
# Where the operations of the store write

The store holds values, and so does its backend, while nothing else that the store works with
touches what is stored there. So the parts of which the operations are made change values only at
certain places. Apart from the question for permission, none of them refuses anything.
-/
namespace Workflow
open Attempt
variable {σ α β : Type}

/-- A place for objects works beside what is looked at. -/
structure ObjectStore.Spares (o : ObjectStore σ) (view : σ → β) : Prop where
  save : ∀ ns key source x, view (o.save ns key source x).2 = view x
  openSource : ∀ ns key x, view (o.openSource ns key x).2 = view x
  delete : ∀ ns key x, view (o.delete ns key x).2 = view x

theorem ObjectStore.Spares.load {o : ObjectStore σ} {view : σ → β} (h : o.Spares view)
    (ns key : String) (x : σ) : view (o.load ns key x).2 = view x := by
  rw [← h.openSource ns key x, ObjectStore.load, bind_apply]
  rcases o.openSource ns key x with ⟨_ | _, _⟩ <;> rfl

/-- A sink writes beside what is looked at. -/
def Sink.Spares (k : Sink σ) (view : σ → β) : Prop :=
  ∀ e x, view (k.append e x).2 = view x

/-- What a store works with keeps its stored values apart from all else. -/
structure Environment.Keeps (env : Environment σ) (stored : σ → String → String → Option Json) :
    Prop where
  backend : ∀ b ∈ env.backend, b.Keeps stored
  objects : ∀ o ∈ env.objects, o.Spares stored
  sink : ∀ k ∈ env.sink, k.Spares stored

/-- If nothing is looked at, nothing changes. -/
theorem Environment.keeps_nothing (env : Environment σ) : env.Keeps fun _ _ _ => none where
  backend _ _ := ⟨fun _ _ _ _ _ _ _ => rfl, fun _ _ _ _ _ _ => rfl, fun _ _ _ => rfl,
    fun _ => rfl⟩
  objects _ _ := ⟨fun _ _ _ _ => rfl, fun _ _ _ => rfl, fun _ _ _ => rfl⟩
  sink _ _ _ _ := rfl

/-- What lies outside when the sink has been given an entry. -/
def Environment.pass (env : Environment σ) (e : TrailEntry) (x : σ) : σ :=
  match env.sink with
  | some k => (k.append e x).2
  | none => x

theorem Environment.pass_view {env : Environment σ} {view : σ → β}
    (h : ∀ k ∈ env.sink, k.Spares view) (e : TrailEntry) (x : σ) :
    view (env.pass e x) = view x := by
  unfold Environment.pass
  split
  · rename_i k hk
    exact h k hk e x
  · rfl

namespace Store

theorem record_apply (env : Environment σ) (e : TrailEntry) (s : Store σ) :
    record env e s = ((), { s with
      trail := s.trail.record e
      ids := fun n => s.ids (n + 1)
      outside := env.pass e s.outside }) := by
  unfold record Environment.pass
  cases env.sink with
  | none => rfl
  | some k =>
    refine congrArg (Prod.mk ()) ?_
    let recorded (x : σ) : Store σ :=
      { s with trail := s.trail.record e, ids := fun n => s.ids (n + 1), outside := x }
    exact congrArg recorded (tolerate_apply (k.append e) s.outside)

/-- The second store has the same permissions as the first one, and other values only at certain
places. -/
structure Confined (stored : σ → String → String → Option Json)
    (P : String → String → Prop) (s t : Store σ) : Prop where
  permissions : t.permissions = s.permissions
  held : ∀ ns key, ¬P ns key → t.data.value? ns key = s.data.value? ns key
  stored : ∀ ns key, ¬P ns key → stored t.outside ns key = stored s.outside ns key

variable {stored : σ → String → String → Option Json} {P : String → String → Prop}
  {env : Environment σ} {s t : Store σ}

instance : Std.Refl (Confined stored P) where
  refl _ := ⟨rfl, fun _ _ _ => rfl, fun _ _ _ => rfl⟩

instance : IsTrans (Store σ) (Confined stored P) where
  trans _ _ _ h k := ⟨k.permissions.trans h.permissions,
    fun ns key hp => (k.held ns key hp).trans (h.held ns key hp),
    fun ns key hp => (k.stored ns key hp).trans (h.stored ns key hp)⟩

namespace Confined

theorem data {f : StoreData → StoreData}
    (h : ∀ d ns key, ¬P ns key → (f d).value? ns key = d.value? ns key) (s : Store σ) :
    Confined stored P s (s.mapData f) :=
  ⟨rfl, fun ns key => h s.data ns key, fun _ _ _ => rfl⟩

theorem write {ns key : String} (hp : P ns key) (v : Json) (s : Store σ) :
    Confined stored P s (s.mapData (·.write s.now ns key v)) :=
  data (fun _ _ _ hn => StoreData.value?_write (fun h => hn (h.1 ▸ h.2 ▸ hp)) v) s

theorem recordRead (ns : String) (key : Option String) (s : Store σ) :
    Confined stored P s (s.mapData (·.recordRead s.now ns key)) :=
  data (fun d _ _ _ => congrArg (Values.value? · _ _) (d.recordRead_values s.now ns key)) s

theorem record (henv : env.Keeps stored) (e : TrailEntry) (s : Store σ) :
    Confined stored P s (record env e s).2 := by
  rw [record_apply]
  exact ⟨rfl, fun _ _ _ => rfl,
    fun ns key _ => congrFun₂ (Environment.pass_view henv.sink e s.outside) ns key⟩

end Confined

/-- What is attempted changes values only at certain places, and refuses nothing. -/
abbrev Confining (stored : σ → String → String → Option Json) (P : String → String → Prop)
    (a : StoreAction σ α) : Prop :=
  Meets (Confined stored P) (fun _ => True) (fun e => e.isRefusal = false) a

theorem modify_confining {f : Store σ → Store σ} (h : ∀ s, Confined stored P s (f s)) :
    Confining stored P (modify f) :=
  .modify h trivial

theorem look_confining {ε : Type} {f : ε → StoreError} {r : Store σ → Except ε α}
    (hf : ∀ e, (f e).isRefusal = false) :
    Confining stored P (Attempt.look fun s => (r s).mapError f) := by
  refine .look (fun _ _ _ => trivial) fun s e he => ?_
  obtain ⟨cause, rfl⟩ := exists_of_mapError he
  exact hf cause

theorem log_confining (henv : env.Keeps stored) (actor : Actor)
    (operation entityType entityId : String) (details : TrailEntry → TrailEntry) :
    Confining stored P (liftM (log env actor operation entityType entityId details)) :=
  .lift fun s => .record henv _ s

theorem onOutside_confining {a : StateM σ α} (h : Leaves stored P a) :
    Confining stored P (onOutside a) :=
  .lift fun s => ⟨rfl, fun _ _ _ => rfl, h s.outside⟩

theorem tryOutside_confining {ε : Type} {f : ε → StoreError} {a : Attempt σ ε α}
    (hf : ∀ e, (f e).isRefusal = false) (h : ∀ x, stored (a x).2 = stored x) :
    Confining stored P (tryOutside f a) := by
  have hlift : Meets (Confined stored P) (fun _ => True) (fun _ : ε => True)
      (outsidePart.lift a) :=
    ⟨fun s => ⟨rfl, fun _ _ _ => rfl, fun ns key _ => congrFun₂ (h s.outside) ns key⟩,
      fun _ _ _ => trivial, fun _ _ _ => trivial⟩
  exact hlift.mapError fun e _ => hf e

theorem audited_confining (henv : env.Keeps stored) (actor : Actor)
    (operation entityType entityId : String) {a : StoreAction σ α} (h : Confining stored P a) :
    Confining stored P (audited env actor operation entityType entityId a) := by
  refine h.tryCatch fun e he => ?_
  dsimp only
  split
  · exact (log_confining henv actor operation entityType entityId _).bind fun _ _ => .throw he
  · exact .throw he

theorem objects_confining (env : Environment σ) :
    Meets (Confined stored P) (· ∈ env.objects) (fun e => e.isRefusal = false) (objects env) := by
  unfold objects
  split
  · rename_i o ho
    exact .pure ho
  · exact .throw rfl

theorem deleteObjects_confining {o : ObjectStore σ} (ho : o.Spares stored)
    (paths : List StorePath) : Confining stored P (deleteObjects o paths) := by
  induction paths with
  | nil => exact .pure trivial
  | cons path paths ih =>
    exact (tryOutside_confining (fun _ => rfl) (ho.delete path.ns path.key)).bind fun _ _ => ih

theorem dropObjects_confining (henv : env.Keeps stored) (paths : List StorePath) :
    Confining stored P (dropObjects env paths) := by
  unfold dropObjects
  split
  · exact (objects_confining env).bind fun o ho => deleteObjects_confining (henv.objects o ho) paths
  · exact .pure trivial

theorem release_confined (henv : env.Keeps stored) (old : Option Json) (new : Json)
    (s : Store σ) : Confined stored P s (release env old new s).2 := by
  unfold release
  cases old.bind Descriptor.referenceOf with
  | none => exact refl_of (Confined stored P) s
  | some path =>
    dsimp only
    by_cases h : Descriptor.referenceOf new = some path
    · rw [if_pos h]
      exact refl_of (Confined stored P) s
    · rw [if_neg h]
      change Confined stored P s ((dropObjects env [path]).tolerate s).2
      rw [tolerate_apply]
      exact (dropObjects_confining henv [path]).changes s

theorem releaseAll_confined (henv : env.Keeps stored) (conflicts : Table Json)
    (written : List (String × Json)) (s : Store σ) :
    Confined stored P s (releaseAll env conflicts written s).2 := by
  induction written generalizing s with
  | nil => exact refl_of (Confined stored P) s
  | cons e written ih =>
    exact trans_of (Confined stored P) (release_confined henv _ _ s) (ih _)

theorem checkValue_confining (henv : env.Keeps stored) (actor : Actor) (resource : String)
    (v : Json) (schema : Option String) :
    Confining stored P (checkValue env actor resource v schema) := by
  cases schema with
  | none => exact .pure trivial
  | some id =>
    refine .bind .get fun s _ => ?_
    split
    · exact .pure trivial
    · exact (log_confining henv actor "set" "context" resource _).bind fun _ _ => .throw rfl

end Store
end Workflow
