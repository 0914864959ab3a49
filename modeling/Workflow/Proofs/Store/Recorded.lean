import Workflow.Proofs.Store.Objects
import Workflow.Proofs.Store.Permission

/-!
# What the trail tells of changes

A call that changes anything leaves an entry about its actor, even if it fails. What is asked at
first is told when it ends the call, and a call that goes on tells of itself at its end, or before
the last thing that may fail. Where a call is about a single value, its entry tells what the value
was and what it has become.
-/
namespace Workflow
open Attempt
variable {σ α β : Type}

/-- What is looked at outside is what the sink has been given, and nothing else touches that. -/
structure Environment.Collects (env : Environment σ) (given : σ → List TrailEntry) : Prop where
  backend : ∀ b ∈ env.backend, b.Spares given
  objects : ∀ o ∈ env.objects, o.Spares given
  sink : ∃ k ∈ env.sink, ∀ e x, given (k.append e x).2 = given x ++ [e]

theorem Environment.Collects.pass {env : Environment σ} {given : σ → List TrailEntry}
    (h : env.Collects given) (e : TrailEntry) (x : σ) : given (env.pass e x) = given x ++ [e] := by
  obtain ⟨k, hk, hgiven⟩ := h.sink
  rw [Environment.pass, show env.sink = some k from hk]
  exact hgiven e x

namespace Store
variable {env : Environment σ} {actor : Actor} {s t u : Store σ} {k m n : Nat}
  {es fs : List TrailEntry}

/-- The second store is one in which entries have been recorded in the first one: they are at the
end of its trail, and the sink has been given them. -/
structure Gains (env : Environment σ) (s : Store σ) (es : List TrailEntry) (t : Store σ) :
    Prop where
  trail : s.trail.Adds es t.trail
  sink : ∀ given, env.Collects given → given t.outside = given s.outside ++ es

namespace Gains

theorem of_eq (ht : t.trail = s.trail) (ho : t.outside = s.outside) : s.Gains env [] t where
  trail := ht ▸ .refl s.trail
  sink given _ := by rw [ho, List.append_nil]

theorem record (e : TrailEntry) (s : Store σ) : s.Gains env [e] (record env e s).2 := by
  rw [record_apply]
  exact ⟨.record s.trail e, fun given h => h.pass e s.outside⟩

theorem trans (h : s.Gains env es t) (k : t.Gains env fs u) : s.Gains env (es ++ fs) u where
  trail := h.trail.trans k.trail
  sink given hg := by rw [k.sink given hg, h.sink given hg, List.append_assoc]

end Gains

def Silent (env : Environment σ) (s t : Store σ) : Prop := s.Gains env [] t

instance : Std.Refl (Silent env) where
  refl _ := .of_eq rfl rfl

instance : IsTrans (Store σ) (Silent env) where
  trans _ _ _ h k := Gains.trans h k

theorem Silent.outside {x : σ} (h : ∀ given, env.Collects given → given x = given s.outside) :
    Silent env s { s with outside := x } where
  trail := .refl s.trail
  sink given hg := (h given hg).trans (List.append_nil _).symm

/-- At least a number of entries have been recorded, and they are all about an actor. -/
def Told (env : Environment σ) (actor : Actor) (n : Nat) (s t : Store σ) : Prop :=
  ∃ es : List TrailEntry, n ≤ es.length ∧ (∀ e ∈ es, e.actor = actor.role) ∧ s.Gains env es t

namespace Told

theorem of_silent (h : Silent env s t) : Told env actor 0 s t :=
  ⟨[], Nat.le_refl 0, List.forall_mem_nil _, h⟩

theorem of_record {e : TrailEntry} (h : e.actor = actor.role) (s : Store σ) :
    Told env actor 1 s (record env e s).2 :=
  ⟨[e], Nat.le_refl 1, fun _ he => List.mem_singleton.mp he ▸ h, .record e s⟩

theorem mono (h : Told env actor n s t) (hm : m ≤ n) : Told env actor m s t := by
  obtain ⟨es, hn, hactor, hgains⟩ := h
  exact ⟨es, hm.trans hn, hactor, hgains⟩

theorem trans (h : Told env actor m s t) (k : Told env actor n t u) :
    Told env actor (m + n) s u := by
  obtain ⟨es, hm, hes, ht⟩ := h
  obtain ⟨fs, hn, hfs, hu⟩ := k
  refine ⟨es ++ fs, ?_, ?_, ht.trans hu⟩
  · rw [List.length_append]
    exact Nat.add_le_add hm hn
  · intro e he
    rcases List.mem_append.mp he with he | he
    · exact hes e he
    · exact hfs e he

end Told

theorem log_told {details : TrailEntry → TrailEntry} (h : ∀ e, (details e).actor = e.actor)
    (operation entityType entityId : String) (s : Store σ) :
    Told env actor 1 s (log env actor operation entityType entityId details s).2 :=
  .of_record (h _) s

theorem Noted.told (h : Noted env actor s t) : Told env actor 0 s t := by
  induction h with
  | refl => exact .of_silent (refl_of (Silent env) s)
  | tail _ h ih =>
    obtain ⟨e, he, rfl⟩ := h
    exact (ih.trans (.of_record he _)).mono (Nat.zero_le _)

/-- What is done leaves at least some entries about an actor, as many as are said for when it
succeeds and for when it fails. -/
structure Tells (env : Environment σ) (actor : Actor) (m n : Nat) (a : StoreAction σ α) : Prop where
  ok : ∀ s v t, a s = (.ok v, t) → Told env actor m s t
  error : ∀ s e t, a s = (.error e, t) → Told env actor n s t

namespace Tells
variable {a : StoreAction σ α} {f : α → StoreAction σ β}

theorem quiet (h : ∀ s, Silent env s (a s).2) : Tells env actor 0 0 a where
  ok s v t ha := by
    have hs := h s
    rw [ha] at hs
    exact .of_silent hs
  error s e t ha := by
    have hs := h s
    rw [ha] at hs
    exact .of_silent hs

theorem lift {a : StateM (Store σ) α} (h : ∀ s, Told env actor m s (a s).2) :
    Tells env actor m n (liftM a : StoreAction σ α) where
  ok s v t ha := by
    cases ha
    exact h s
  error s e t ha := by cases ha

theorem modify {f : Store σ → Store σ}
    (h : ∀ s, (f s).trail = s.trail ∧ (f s).outside = s.outside) :
    Tells env actor 0 n (modify f : StoreAction σ PUnit) where
  ok s v t ha := by
    cases ha
    exact .of_silent (.of_eq (h s).1 (h s).2)
  error s e t ha := by cases ha

theorem get : Tells env actor 0 n (MonadState.get : StoreAction σ (Store σ)) where
  ok s w t ha := by
    cases ha
    exact .of_silent (.of_eq rfl rfl)
  error s e t ha := by cases ha

theorem pure (v : α) : Tells env actor 0 n (Pure.pure v : StoreAction σ α) where
  ok s w t ha := by
    cases ha
    exact .of_silent (.of_eq rfl rfl)
  error s e t ha := by cases ha

theorem throw (e : StoreError) : Tells env actor m 0 (MonadExcept.throw e : StoreAction σ α) where
  ok s w t ha := by cases ha
  error s cause t ha := by
    cases ha
    exact .of_silent (.of_eq rfl rfl)

theorem weaken (ha : Tells env actor m n a) (hk : k ≤ m) : Tells env actor k n a where
  ok s v t h := (ha.ok s v t h).mono hk
  error := ha.error

theorem bind (ha : Tells env actor 0 n a) (hf : ∀ v, Tells env actor m n (f v)) :
    Tells env actor m n (a >>= f) where
  ok s w t h := by
    obtain ⟨v, u, hv, hw⟩ := ok_bind_cases h
    exact ((ha.ok s v u hv).trans ((hf v).ok u w t hw)).mono (Nat.le_add_left m 0)
  error s e t h := by
    obtain ⟨cause, hcause, -⟩ | ⟨v, u, hv, hw⟩ := bind_cases h
    · exact ha.error s cause t hcause
    · exact ((ha.ok s v u hv).trans ((hf v).error u e t hw)).mono (Nat.le_add_left n 0)

/-- What has told of itself may fail afterwards without another entry. -/
theorem before (ha : Tells env actor n n a) (hf : ∀ v, Tells env actor 0 0 (f v)) :
    Tells env actor n n (a >>= f) where
  ok s w t h := by
    obtain ⟨v, u, hv, hw⟩ := ok_bind_cases h
    exact (ha.ok s v u hv).trans ((hf v).ok u w t hw)
  error s e t h := by
    obtain ⟨cause, hcause, -⟩ | ⟨v, u, hv, hw⟩ := bind_cases h
    · exact ha.error s cause t hcause
    · exact (ha.ok s v u hv).trans ((hf v).error u e t hw)

/-- What fails without a refusal, and without an entry, gets one. -/
theorem audited {operation entityType entityId : String} (ha : Tells env actor 0 0 a)
    (hfails : ∀ s e, (a s).1 = .error e → e.isRefusal = false) :
    Tells env actor 0 1 (Store.audited env actor operation entityType entityId a) where
  ok s v t h := by
    obtain ⟨u, hu, -, hok⟩ := audited_cases h
    obtain rfl := hok v rfl
    exact ha.ok s v t hu
  error s e t h := by
    rw [Store.audited, tryCatch_apply] at h
    rcases hs : a s with ⟨cause | v, u⟩
    · have hrefusal : cause.isRefusal = false := hfails s cause (congrArg Prod.fst hs)
      simp only [hs, hrefusal, Bool.not_false, if_true, lift_bind, throw_apply] at h
      cases h
      refine ((ha.error s _ u hs).trans (log_told ?_ _ _ _ u)).mono (Nat.le_refl 1)
      exact fun _ => rfl
    · rw [hs] at h
      cases h

/-- What tells of itself does so also where its failure gets another entry. -/
theorem audited_of_tells {operation entityType entityId : String} (ha : Tells env actor m n a) :
    Tells env actor m n (Store.audited env actor operation entityType entityId a) where
  ok s v t h := by
    obtain ⟨u, hu, hn, -⟩ := audited_cases h
    exact (ha.ok s v u hu).trans hn.told
  error s e t h := by
    obtain ⟨u, hu, hn, -⟩ := audited_cases h
    exact (ha.error s e u hu).trans hn.told

end Tells

theorem log_tells {operation entityType entityId : String} {details : TrailEntry → TrailEntry}
    (h : ∀ e, (details e).actor = e.actor) :
    Tells env actor 1 n
      (liftM (log env actor operation entityType entityId details) : StoreAction σ Unit) :=
  .lift (log_told h operation entityType entityId)

/-- What an operation leaves an entry about when it is done. -/
theorem logged_tells {operation entityType entityId : String}
    {details : TrailEntry → TrailEntry} {v : α} (h : ∀ e, (details e).actor = e.actor) :
    Tells env actor 1 1 ((liftM (log env actor operation entityType entityId details) :
      StoreAction σ Unit) >>= fun _ => Pure.pure v) :=
  (log_tells h).before fun _ => .pure v

theorem authorize_tells (operation resource : String) (access : Access) :
    Tells env actor 0 1 (authorize env actor operation resource access) where
  ok s v t h := by
    by_cases hmay : actor.May s.permissions resource access
    · rw [authorize_of_may hmay] at h
      cases h
      exact .of_silent (.of_eq rfl rfl)
    · rw [authorize_of_not_may hmay] at h
      cases h
  error s e t h := by
    by_cases hmay : actor.May s.permissions resource access
    · rw [authorize_of_may hmay] at h
      cases h
    · rw [authorize_of_not_may hmay] at h
      cases h
      exact .of_record rfl s

theorem authorizeAll_tells (operation : String) (access : Access) (resources : List String) :
    Tells env actor 0 1 (authorizeAll env actor operation access resources) := by
  induction resources with
  | nil => exact .pure _
  | cons resource resources ih => exact (authorize_tells operation resource access).bind fun _ => ih

theorem checkValue_tells (resource : String) (v : Json) (schema : Option String) :
    Tells env actor 0 1 (checkValue env actor resource v schema) := by
  cases schema with
  | none => exact .pure _
  | some id =>
    refine .bind .get fun s => ?_
    cases s.schemas.validate id v with
    | ok _ => exact .pure _
    | error e =>
      exact ((log_tells fun _ => by rfl).before fun _ => .throw _).weaken (Nat.zero_le 1)

theorem backend_bind_tells {operation resource : String} {f : Backend σ → StoreAction σ α}
    (h : ∀ b ∈ env.backend, Tells env actor m 1 (f b)) :
    Tells env actor m 1 (backend env actor operation resource >>= f) := by
  unfold backend
  cases hb : env.backend with
  | some b =>
    dsimp only
    rw [pure_bind]
    exact h b hb
  | none =>
    have hthrow : Tells env actor 0 1 (Store.audited env actor operation "storage" resource
        (throw (.unavailable .persistence) : StoreAction σ (Backend σ))) := by
      refine .audited (.quiet fun s => refl_of (Silent env) s) fun s e he => ?_
      cases he
      rfl
    refine ⟨fun s v t hv => ?_, fun s e t he => ?_⟩
    · obtain ⟨b, u, hfails, -⟩ := ok_bind_cases hv
      obtain ⟨w, hw, -⟩ := audited_cases hfails
      cases hw
    · obtain ⟨cause, hfails, -⟩ | ⟨b, u, hfails, -⟩ := bind_cases he
      · exact hthrow.error s cause t hfails
      · obtain ⟨w, hw, -⟩ := audited_cases hfails
        cases hw

theorem onOutside_silent {a : StateM σ α}
    (h : ∀ given, env.Collects given → Does (SameView given) a) (s : Store σ) :
    Silent env s (outsidePart.run a s).2 :=
  .outside fun given hg => h given hg s.outside

theorem storedSpaces_tells {b : Backend σ} (hb : b ∈ env.backend) (ns : Option String) :
    Tells env actor 0 n (storedSpaces b ns) := by
  cases ns with
  | some ns => exact .pure _
  | none =>
    exact .lift fun s => .of_silent
      (onOutside_silent (fun given hg => (hg.backend b hb).tryNamespaces) s)

theorem loadAll_tells {b : Backend σ} (hb : b ∈ env.backend) (spaces : List String) :
    Tells env actor 0 n (loadAll b spaces) := by
  induction spaces with
  | nil => exact .pure _
  | cons ns spaces ih =>
    have hload (s : Store σ) : Told env actor 0 s (outsidePart.run (b.loadSpace ns) s).2 :=
      .of_silent (onOutside_silent (fun given hg => (hg.backend b hb).loadSpace ns) s)
    refine .bind (.lift hload) fun loaded => ?_
    cases loaded with
    | none => exact ih
    | some values => exact .bind (.modify fun _ => ⟨rfl, rfl⟩) fun _ => ih.bind fun _ => .pure _

theorem dropObjects_silent (env : Environment σ) (paths : List StorePath) (s : Store σ) :
    Silent env s (dropObjects env paths s).2 := by
  have delete {o : ObjectStore σ} (ho : o ∈ env.objects) (paths : List StorePath) (s : Store σ) :
      Silent env s (deleteObjects o paths s).2 := by
    induction paths generalizing s with
    | nil => exact refl_of (Silent env) s
    | cons path paths ih =>
      rw [deleteObjects, bind_apply, tryOutside_apply]
      have hpath : Silent env s { s with outside := (o.delete path.ns path.key s.outside).2 } :=
        .outside fun given hg => (hg.objects o ho).delete path.ns path.key s.outside
      cases (o.delete path.ns path.key s.outside).1 with
      | ok _ => exact trans_of (Silent env) hpath (ih _)
      | error _ => exact hpath
  unfold dropObjects objects
  split
  · cases ho : env.objects with
    | some o => exact delete ho paths s
    | none => exact refl_of (Silent env) s
  · exact refl_of (Silent env) s

theorem release_silent (env : Environment σ) (old : Option Json) (new : Json) (s : Store σ) :
    Silent env s (release env old new s).2 := by
  obtain ⟨-, h⟩ | ⟨path, -, -, h⟩ := release_cases env old new s
  · rw [h]
    exact refl_of (Silent env) s
  · rw [h]
    exact dropObjects_silent env [path] s

theorem releaseAll_silent (env : Environment σ) (conflicts : Table Json)
    (written : List (String × Json)) (s : Store σ) :
    Silent env s (releaseAll env conflicts written s).2 := by
  induction written generalizing s with
  | nil => exact refl_of (Silent env) s
  | cons e written ih => exact trans_of (Silent env) (release_silent env _ _ s) (ih _)

theorem Writes.silent {ns key : String} {source : Source} {metadata : BinaryMetadata}
    {r : Except StoreError Written} (h : Writes env ns key source metadata s r t) :
    Silent env s t := by
  have saved {o : ObjectStore σ} (ho : o ∈ env.objects) {source : Source}
      {result : Except ObjectError Nat} {x : σ} (hx : o.save ns key source s.outside = (result, x))
      (schemas : SchemaRegistry) : Silent env s { s with schemas, outside := x } := by
    refine ⟨.refl s.trail, fun given hg => ?_⟩
    have hsame := (hg.objects o ho).save ns key source s.outside
    rw [hx] at hsame
    exact hsame.trans (List.append_nil _).symm
  cases h with
  | refused => exact .of_eq rfl rfl
  | inline => exact .of_eq rfl rfl
  | referenced _ _ ho hx => exact saved ho hx _
  | broken ho hx => exact saved ho hx _

theorem set_tells (ns key : String) (v : Json) (opts : SetOptions) :
    Tells env actor 1 1 (Store.set env actor ns key v opts) := by
  refine (authorize_tells _ _ _).bind fun _ => (checkValue_tells _ v _).bind fun _ => ?_
  refine .bind .get fun u => ?_
  dsimp only
  split
  · exact logged_tells fun _ => by rfl
  · refine .bind (.modify fun _ => ⟨rfl, rfl⟩) fun _ => ?_
    refine .bind (.lift fun s => .of_silent (release_silent env _ v s)) fun _ => ?_
    exact logged_tells fun _ => by rfl

theorem read_tells (ns key : String) : Tells env actor 1 1 (Store.read env actor ns key) := by
  refine (authorize_tells _ _ _).bind fun _ => .bind .get fun u => ?_
  dsimp only
  split
  · exact .bind (.modify fun _ => ⟨rfl, rfl⟩) fun _ => logged_tells fun _ => by rfl
  · exact logged_tells fun _ => by rfl

theorem readSpace_tells (ns : String) : Tells env actor 1 1 (Store.readSpace env actor ns) := by
  refine (authorize_tells _ _ _).bind fun _ => .bind .get fun u => ?_
  dsimp only
  split
  · exact .bind (.modify fun _ => ⟨rfl, rfl⟩) fun _ => logged_tells fun _ => by rfl
  · exact logged_tells fun _ => by rfl

theorem delete_tells (ns : String) (key : Option String) :
    Tells env actor 1 1 (Store.delete env actor ns key) := by
  refine (authorize_tells _ _ _).bind fun _ => .bind .get fun u => ?_
  refine .bind (.modify fun _ => ⟨rfl, rfl⟩) fun _ => (log_tells fun _ => by rfl).before fun _ => ?_
  exact .bind (.quiet fun s => dropObjects_silent env _ s) fun _ => .pure _

theorem contains_tells (ns key : String) : Tells env actor 1 1 (Store.contains env actor ns key) :=
  (authorize_tells _ _ _).bind fun _ => .bind .get fun _ => logged_tells fun _ => by rfl

theorem append_tells (ns key : String) (v : Json) :
    Tells env actor 1 1 (Store.append env actor ns key v) := by
  refine (authorize_tells _ _ _).bind fun _ => .bind .get fun u => ?_
  refine .bind (.audited (.quiet fun _ => .of_eq rfl rfl) fun s e he => ?_) fun items => ?_
  · change listOf _ _ = _ at he
    unfold listOf at he
    split at he <;> cases he
    rfl
  · exact .bind (.modify fun _ => ⟨rfl, rfl⟩) fun _ => logged_tells fun _ => by rfl

theorem merge_tells (ns : String) (values : Table Json) (strategy : MergeStrategy) :
    Tells env actor 1 1 (Store.merge env actor ns values strategy) := by
  refine (authorizeAll_tells _ _ _).bind fun _ => .bind .get fun u => ?_
  refine .bind (.modify fun _ => ⟨rfl, rfl⟩) fun _ => ?_
  refine .bind (.lift fun s => .of_silent (releaseAll_silent env _ _ s)) fun _ => ?_
  exact logged_tells fun _ => by rfl

theorem snapshot_tells (ns : String) : Tells env actor 1 1 (Store.snapshot env actor ns) :=
  (authorize_tells _ _ _).bind fun _ => .bind (.modify fun _ => ⟨rfl, rfl⟩) fun _ =>
    .bind .get fun _ => logged_tells fun _ => by rfl

theorem restore_tells (id : Nat) : Tells env actor 1 1 (Store.restore env actor id) := by
  refine .bind .get fun s => ?_
  cases s.snapshot? id with
  | none => exact logged_tells fun _ => by rfl
  | some snap =>
    refine (authorize_tells _ _ _).bind fun _ => .bind .get fun _ => ?_
    exact .bind (.modify fun _ => ⟨rfl, rfl⟩) fun _ => logged_tells fun _ => by rfl

theorem savePayload_tells (ns key : String) (source : Source) (metadata : BinaryMetadata) :
    Tells env actor 1 1 (Store.savePayload env actor ns key source metadata) := by
  refine (authorize_tells _ _ _).bind fun _ => ?_
  have hwrite : Tells env actor 0 0 (writePayload env ns key source metadata) :=
    .quiet fun _ => (writePayload_cases rfl).silent
  refine .bind (.audited hwrite ?_) fun written => ?_
  · exact (writePayload_confining (P := fun _ _ => True) env.keeps_nothing _ _ _ _).fails
  refine .bind .get fun u => .bind (.modify fun _ => ⟨rfl, rfl⟩) fun _ => ?_
  refine .bind (.lift fun s => .of_silent (release_silent env _ _ s)) fun _ => ?_
  exact logged_tells fun _ => by rfl

theorem readPayload_tells (operation ns key : String) (held : Bytes → α)
    {referred : ObjectStore σ → StorePath → Attempt σ ObjectError α}
    (h : ∀ o ∈ env.objects, ∀ given, env.Collects given →
      ∀ path x, given (referred o path x).2 = given x) :
    Tells env actor 1 1 (readPayload env actor operation ns key held referred) := by
  refine .audited_of_tells ((read_tells ns key).before fun found => ?_)
  refine .bind (.quiet fun _ => .of_eq rfl rfl) fun d => ?_
  split
  · unfold objects
    cases ho : env.objects with
    | some o =>
      exact .quiet fun s => .outside fun given hg => h o ho given hg _ s.outside
    | none => exact .quiet fun _ => .of_eq rfl rfl
  · exact .quiet fun _ => .of_eq rfl rfl

theorem save_tells (ns : Option String) : Tells env actor 1 1 (Store.save env actor ns) := by
  refine backend_bind_tells fun b hb => (storedSpaces_tells hb ns).bind fun names => ?_
  refine .bind .get fun u => (authorizeAll_tells _ _ _).bind fun _ => ?_
  have hsync (spaces : List (String × Table Json)) (s : Store σ) :
      Told env actor 0 s (outsidePart.run (b.syncAll spaces) s).2 :=
    .of_silent (onOutside_silent (fun given hg => (hg.backend b hb).syncAll spaces) s)
  exact .bind (.lift (hsync _)) fun _ => logged_tells fun _ => by rfl

theorem load_tells (ns : Option String) : Tells env actor 1 1 (Store.load env actor ns) := by
  refine backend_bind_tells fun b hb => (storedSpaces_tells hb ns).bind fun names => ?_
  refine (authorizeAll_tells _ _ _).bind fun _ => ?_
  exact (loadAll_tells hb _).bind fun _ => logged_tells fun _ => by rfl

theorem deleteStored_tells (ns : String) (key : Option String) :
    Tells env actor 1 1 (Store.deleteStored env actor ns key) := by
  refine backend_bind_tells fun b hb => (authorize_tells _ _ _).bind fun _ => ?_
  have hdelete (s : Store σ) : Told env actor 0 s (outsidePart.run (b.tryDelete ns key) s).2 :=
    .of_silent (onOutside_silent (fun given hg => (hg.backend b hb).tryDelete ns key) s)
  exact .bind (.lift hdelete) fun _ => logged_tells fun _ => by rfl

end Store

open Store

/-- A call tells of itself, unless it answers the keys of a namespace and leaves the store as it
is. -/
theorem StoreCall.perform_told {env : Environment σ} {actor : Actor} {call : StoreCall}
    {s t : Store σ} {r : Except StoreError StoreAnswer}
    (h : call.perform env actor s = (r, t)) : t = s ∨ Told env actor 1 s t := by
  have told {α : Type} {a : StoreAction σ α} {f : α → StoreAnswer} (ha : Tells env actor 1 1 a)
      (h : (a >>= fun v => pure (f v)) s = (r, t)) : t = s ∨ Told env actor 1 s t := by
    obtain ⟨found, hf, -⟩ := answer_cases h
    cases found with
    | ok v => exact .inr (ha.ok s v t hf)
    | error e => exact .inr (ha.error s e t hf)
  cases call with
  | set ns key v opts => exact told (set_tells ns key v opts) h
  | read ns key => exact told (read_tells ns key) h
  | readSpace ns => exact told (readSpace_tells ns) h
  | delete ns key => exact told (delete_tells ns key) h
  | contains ns key => exact told (contains_tells ns key) h
  | keys ns =>
    obtain ⟨found, hf, -⟩ := answer_cases h
    rw [Store.keys, bind_apply] at hf
    by_cases hmay : actor.May s.permissions (spaceResource ns) .read
    · rw [authorize_of_may hmay] at hf
      cases hf
      exact .inl rfl
    · rw [authorize_of_not_may hmay] at hf
      cases hf
      exact .inr (.of_record rfl s)
  | append ns key v => exact told (append_tells ns key v) h
  | merge ns values strategy => exact told (merge_tells ns values strategy) h
  | snapshot ns => exact told (snapshot_tells ns) h
  | restore id => exact told (restore_tells id) h
  | savePayload ns key source metadata => exact told (savePayload_tells ns key source metadata) h
  | loadPayload ns key =>
    exact told (readPayload_tells _ ns key _ fun o ho given hg path =>
      (hg.objects o ho).load path.ns path.key) h
  | openPayload ns key =>
    exact told (readPayload_tells _ ns key _ fun o ho given hg path =>
      (hg.objects o ho).openSource path.ns path.key) h
  | save ns => exact told (save_tells ns) h
  | load ns => exact told (load_tells ns) h
  | deleteStored ns key => exact told (deleteStored_tells ns key) h

/-- The key that a call is about, if it may change the value of only one. -/
def StoreCall.key? : StoreCall → Option StorePath
  | .set ns key _ _ => some ⟨ns, key⟩
  | .append ns key _ => some ⟨ns, key⟩
  | .delete ns (some key) => some ⟨ns, key⟩
  | _ => none

/-- What a change of a value is called in the trail. -/
def changeName (before after : Option Json) : String :=
  match before, after with
  | none, _ => "create"
  | some _, some _ => "update"
  | some _, none => "delete"

/-- An entry tells who has changed the value of a key, what it was and what it has become. -/
structure TrailEntry.Reports (e : TrailEntry) (actor : Actor) (path : StorePath)
    (before after : Option Json) : Prop where
  actor : e.actor = actor.role
  entityId : e.entityId = path.resource
  operation : e.operation = changeName before after
  oldValue : e.oldValue = before
  newValue : e.newValue = after

theorem writeName_eq (old : Option Json) (v : Json) : writeName old = changeName old (some v) := by
  cases old <;> rfl

namespace Store
variable {env : Environment σ} {actor : Actor} {s t : Store σ} {ns key : String}

/-- How the only entry of a call reports a value that has been changed. -/
def Reported (env : Environment σ) (actor : Actor) (ns key : String) (s t : Store σ) : Prop :=
  ∃ e : TrailEntry, s.Gains env [e] t ∧
    e.Reports actor ⟨ns, key⟩ (s.data.value? ns key) (t.data.value? ns key)

theorem Reported.of_record {u : Store σ} {e : TrailEntry} (hu : Silent env s u)
    (h : e.Reports actor ⟨ns, key⟩ (s.data.value? ns key) (u.data.value? ns key)) :
    Reported env actor ns key s (record env e u).2 := by
  refine ⟨e, Gains.trans hu (.record e u), ?_⟩
  rw [record_apply]
  exact h

theorem Reported.elsewhere {u : Store σ} (h : Reported env actor ns key s u) (hu : Silent env u t)
    (hdata : t.data = u.data) : Reported env actor ns key s t := by
  obtain ⟨e, hgains, hreports⟩ := h
  refine ⟨e, hgains.trans hu, ?_⟩
  rw [hdata]
  exact hreports

theorem set_reported {v : Json} {opts : SetOptions} {r : Except StoreError Bool}
    (h : Store.set env actor ns key v opts s = (r, t))
    (hc : t.data.value? ns key ≠ s.data.value? ns key) : Reported env actor ns key s t := by
  obtain ⟨-, -, hn⟩ | h := (authorize_gate _ _ _).bind_cases h
  · exact absurd (congrArg (·.value? ns key) hn.data) hc
  obtain ⟨-, -, hn⟩ | h := (checkValue_gate _ _ _).bind_cases h
  · exact absurd (congrArg (·.value? ns key) hn.data) hc
  rw [get_bind] at h
  split at h
  · obtain ⟨-, hn⟩ := logged h fun _ => rfl
    exact absurd (congrArg (·.value? ns key) hn.data) hc
  · rw [modify_bind, lift_bind, lift_bind] at h
    cases h
    have hu := release_elsewhere env (s.data.value? ns key) v (s.mapData (·.write s.now ns key v))
    have hv : (release env (s.data.value? ns key) v
        (s.mapData (·.write s.now ns key v))).2.data.value? ns key = some v := by
      rw [hu.data]
      exact StoreData.value?_write_self s.data s.now ns key v
    have hwrite : Silent env s (s.mapData (·.write s.now ns key v)) := .of_eq rfl rfl
    have hsilent := trans_of (Silent env) hwrite (release_silent env (s.data.value? ns key) v _)
    refine .of_record hsilent ⟨rfl, rfl, ?_, rfl, hv.symm⟩
    rw [hv]
    exact writeName_eq _ v

theorem append_reported {v : Json} {r : Except StoreError Nat}
    (h : Store.append env actor ns key v s = (r, t))
    (hc : t.data.value? ns key ≠ s.data.value? ns key) : Reported env actor ns key s t := by
  obtain ⟨-, -, hn⟩ | h := (authorize_gate _ _ _).bind_cases h
  · exact absurd (congrArg (·.value? ns key) hn.data) hc
  rw [get_bind] at h
  obtain ⟨e, ha, -⟩ | ⟨items, u, ha, h⟩ := bind_cases h
  · obtain ⟨u, hu, hn, -⟩ := audited_cases ha
    obtain ⟨-, rfl⟩ := Prod.mk.inj hu
    exact absurd (congrArg (·.value? ns key) hn.data) hc
  · obtain ⟨w, hw, -, hok⟩ := audited_cases ha
    obtain rfl := hok _ rfl
    obtain ⟨-, rfl⟩ := Prod.mk.inj hw
    rw [modify_bind, lift_bind] at h
    cases h
    have hv := StoreData.value?_write_self s.data s.now ns key (.arr (items ++ [v]))
    refine .of_record (.of_eq rfl rfl) ⟨rfl, rfl, ?_, rfl, hv.symm⟩
    rw [mapData, hv]
    exact writeName_eq _ _

theorem delete_reported {r : Except StoreError Bool}
    (h : Store.delete env actor ns (some key) s = (r, t))
    (hc : t.data.value? ns key ≠ s.data.value? ns key) : Reported env actor ns key s t := by
  obtain ⟨-, -, hn⟩ | h := (authorize_gate _ _ _).bind_cases h
  · exact absurd (congrArg (·.value? ns key) hn.data) hc
  rw [get_bind, modify_bind, lift_bind] at h
  obtain ⟨found, hdrop⟩ : ∃ found, dropObjects env _ _ = (found, t) := by
    obtain ⟨e, hdrop, -⟩ | ⟨⟨⟩, u, hdrop, h⟩ := bind_cases h
    · exact ⟨_, hdrop⟩
    · cases h
      exact ⟨_, hdrop⟩
  have helse := dropped_elsewhere hdrop
  have hdata : t.data = s.data.remove ns (some key) := by
    rw [helse.data]
    exact (log_noted (fun _ => by rfl) _ _ _ _).data
  have hafter : (s.data.remove ns (some key)).value? ns key = none :=
    StoreData.value?_remove_self fun _ hk => Option.some.inj hk
  have hsilent {u : Store σ} {paths : List StorePath} (hu : dropObjects env paths u = (found, t)) :
      Silent env u t := by
    have hpaths := dropObjects_silent env paths u
    rwa [hu] at hpaths
  refine Reported.elsewhere ?_ (hsilent hdrop) helse.data
  refine .of_record (.of_eq rfl rfl) ⟨rfl, rfl, ?_, rfl, hafter.symm⟩
  rw [hdata, hafter] at hc
  cases hbefore : s.data.value? ns key with
  | none => exact absurd hbefore.symm hc
  | some v =>
    rw [mapData, hafter]
    rfl

end Store

/-- Every change is told of. A call after which the data, the history or anything outside is not
what it was has recorded entries, all of them about its actor, whatever it answers: they are at the
end of the trail, and the sink has been given them. If it was about the value of a single key and
has changed it, its only entry tells of this change. -/
theorem changes_recorded {env : Environment σ} {actor : Actor} {call : StoreCall} {s t : Store σ}
    {r : Except StoreError StoreAnswer} (h : call.perform env actor s = (r, t)) :
    (t.data ≠ s.data ∨ t.history ≠ s.history ∨ t.outside ≠ s.outside →
      ∃ es : List TrailEntry, s.Gains env es t ∧ (∀ e ∈ es, e.actor = actor.role) ∧
        ∃ e ∈ es, t.trail.entries.getLast? = some e) ∧
      ∀ path, call.key? = some path →
        t.data.value? path.ns path.key ≠ s.data.value? path.ns path.key →
        ∃ e : TrailEntry, s.Gains env [e] t ∧ t.trail.entries.getLast? = some e ∧
          e.Reports actor path (s.data.value? path.ns path.key)
            (t.data.value? path.ns path.key) := by
  have reported {ns key : String} (hr : Reported env actor ns key s t) :
      ∃ e : TrailEntry, s.Gains env [e] t ∧ t.trail.entries.getLast? = some e ∧
        e.Reports actor ⟨ns, key⟩ (s.data.value? ns key) (t.data.value? ns key) := by
    obtain ⟨e, hgains, hreports⟩ := hr
    exact ⟨e, hgains, hgains.trail.getLast? rfl, hreports⟩
  refine ⟨fun hchange => ?_, fun path hpath hvalue => ?_⟩
  · obtain rfl | htold := call.perform_told h
    · simp at hchange
    · obtain ⟨es, hsome, hactor, hgains⟩ := htold
      have he := List.getLast?_eq_some_getLast (List.ne_nil_of_length_pos hsome)
      exact ⟨es, hgains, hactor, _, List.mem_of_getLast? he, hgains.trail.getLast? he⟩
  · cases call with
    | set ns key v opts =>
      cases hpath
      obtain ⟨found, hf, -⟩ := StoreCall.answer_cases h
      exact reported (set_reported hf hvalue)
    | append ns key v =>
      cases hpath
      obtain ⟨found, hf, -⟩ := StoreCall.answer_cases h
      exact reported (append_reported hf hvalue)
    | delete ns key =>
      cases key with
      | none => cases hpath
      | some key =>
        cases hpath
        obtain ⟨found, hf, -⟩ := StoreCall.answer_cases h
        exact reported (delete_reported hf hvalue)
    | _ => cases hpath

open Store in
/-- The key of a payload is deleted where there is no place for objects. The call fails, but its
entry tells of the value that is gone. -/
theorem changes_recorded_failed :
    let v := (Descriptor.ofReference ⟨"b", "p"⟩ default).toJson
    let s := Store.holding [⟨"*", ".*", [.any], .allow⟩] "b" "p" v
    ∃ (t : Store Values) (e : TrailEntry),
      (StoreCall.delete "b" (some "p")).perform .inMemory (.ofRole "r") s =
        (.error (.unavailable .objects), t) ∧
      t.data.value? "b" "p" = none ∧ s.trail.Adds [e] t.trail ∧
      t.trail.entries.getLast? = some e ∧ e.Reports (.ofRole "r") ⟨"b", "p"⟩ (some v) none := by
  have hs : let v := (Descriptor.ofReference ⟨"b", "p"⟩ default).toJson
      let s := Store.holding [⟨"*", ".*", [.any], .allow⟩] "b" "p" v
      s.data.value? "b" "p" = some v ∧
        (referencesIn (some "p") (s.data.values.find "b" (some "p"))).isEmpty = false ∧
        s.permissions.allows "r" "b.p" .delete = true := by
    refine ⟨rfl, by decide +kernel, ?_⟩
    rw [Store.holding_permissions]
    cbv
  dsimp only at hs ⊢
  generalize Store.holding _ "b" "p" _ = s at hs ⊢
  generalize (Descriptor.ofReference ⟨"b", "p"⟩ default).toJson = v at hs ⊢
  obtain ⟨hs, hreferred, hmay⟩ := hs
  obtain ⟨t, h, hdata⟩ : ∃ t, (StoreCall.delete "b" (some "p")).perform .inMemory (.ofRole "r") s =
      _ ∧ _ := StoreCall.delete_inMemory (.inr hmay)
  rw [hreferred] at h
  have ht : t.data.value? "b" "p" = none :=
    (congrArg (StoreData.value? · "b" "p") hdata).trans
      (StoreData.value?_remove_self fun _ hk => Option.some.inj hk)
  have hc : t.data.value? "b" "p" ≠ s.data.value? "b" "p" := by
    rw [hs, ht]
    exact (Option.some_ne_none v).symm
  obtain ⟨e, hgains, hlast, he⟩ := (changes_recorded h).2 ⟨"b", "p"⟩ rfl hc
  rw [hs, ht] at he
  exact ⟨t, e, h, ht, hgains.trail, hlast, he⟩

end Workflow
