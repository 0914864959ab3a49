import Mathlib.Logic.Relation
import Workflow.Proofs.Store.Call
import Workflow.Proofs.Store.Confined
import Workflow.Proofs.Trail.Entries

/-!
# What asking for permission comes to

Every operation asks for permission before it changes anything. So it is either refused, and then
nothing has happened but that the trail has an entry about the refusal; or the actor may have the
access that was asked for, and values change only at the places that this is about.
-/
namespace Workflow
open Attempt Relation
variable {σ α β : Type}

def Actor.May (actor : Actor) (p : Permissions) (resource : String) (access : Access) : Prop :=
  actor.bypass = true ∨ p.allows actor.role resource access = true

/-- What is looked at is left alone by listing the stored namespaces and by the sink. -/
structure Environment.Spares (env : Environment σ) (view : σ → β) : Prop where
  namespaces : ∀ b ∈ env.backend, ∀ x, view (b.namespaces x).2 = view x
  sink : ∀ k ∈ env.sink, k.Spares view

theorem Environment.Keeps.spares {env : Environment σ}
    {stored : σ → String → String → Option Json} (henv : env.Keeps stored) : env.Spares stored :=
  ⟨fun b hb => (henv.backend b hb).namespaces, henv.sink⟩

/-- What lies outside when the stored namespaces have been listed, if that was done at all. -/
def Environment.Listed (env : Environment σ) : σ → σ → Prop :=
  ReflTransGen fun x y => ∃ b ∈ env.backend, y = (b.namespaces x).2

theorem Environment.Listed.view {env : Environment σ} {view : σ → β} {x y : σ}
    (h : env.Listed x y) (hv : env.Spares view) : view y = view x := by
  induction h with
  | refl => rfl
  | tail _ h ih =>
    obtain ⟨b, hb, rfl⟩ := h
    exact (hv.namespaces b hb _).trans ih

/-- An entry is the next one of a store, and tells that an actor was denied something. -/
structure TrailEntry.Denies (e : TrailEntry) (actor : Actor) (s : Store σ) : Prop where
  id : e.id = s.ids 0
  time : e.time = s.now
  actor : e.actor = actor.role
  denied : e.metadata.get? "denied" = some (.bool true)

namespace Store
variable {env : Environment σ} {actor : Actor} {s t : Store σ}
  {stored : σ → String → String → Option Json} {P : String → String → Prop}

/-- The second store is the first one after a refusal: the trail and the sink have been given one
more entry, which tells who was refused, and nothing else has changed. -/
def Denied (env : Environment σ) (actor : Actor) (s t : Store σ) : Prop :=
  ∃ (entry : TrailEntry) (x : σ), entry.Denies actor s ∧ env.Listed s.outside x ∧
    t = { s with
      trail := s.trail.record entry
      ids := fun n => s.ids (n + 1)
      outside := env.pass entry x }

theorem Denied.view {view : σ → β} (h : Denied env actor s t) (hv : env.Spares view) :
    view t.outside = view s.outside := by
  obtain ⟨entry, x, -, hx, rfl⟩ := h
  exact (Environment.pass_view hv.sink entry x).trans (hx.view hv)

/-- What an operation comes to: a refusal, or a change of values at certain places. -/
inductive Guarded (env : Environment σ) (stored : σ → String → String → Option Json)
    (actor : Actor) (P : String → String → Prop) (s : Store σ) :
    Except StoreError α × Store σ → Prop
  | refused {cause t} : Denied env actor s t →
      Guarded env stored actor P s (.error (.permission cause), t)
  | passed {r t} : (∀ e, r = .error e → e.isRefusal = false) → Confined stored P s t →
      Guarded env stored actor P s (r, t)

def denial (actor : Actor) (operation resource : String) (access : Access) (s : Store σ) :
    TrailEntry :=
  ((TrailEntry.plain (s.ids 0) s.now operation "context" resource actor.role).withMeta "denied"
    (.bool true)).withMeta "action" (.str access.name)

theorem denied_record (operation resource : String) (access : Access) (s : Store σ) :
    Denied env actor s (record env (denial actor operation resource access s) s).2 := by
  rw [record_apply]
  refine ⟨_, s.outside, ⟨rfl, rfl, rfl, ?_⟩, .refl, rfl⟩
  have hne : "denied" ≠ "action" := by decide
  exact (Table.get?_insert_of_ne _ hne _).trans (Table.get?_insert_self _ _ _)

theorem authorize_of_may {operation resource : String} {access : Access}
    (h : actor.May s.permissions resource access) :
    authorize env actor operation resource access s = (.ok ⟨⟩, s) := by
  unfold authorize
  cases hb : actor.bypass with
  | true => rfl
  | false =>
    have hallows : s.permissions.allows actor.role resource access = true :=
      h.resolve_left (by simp [hb])
    simp only [Bool.not_false, if_true, get_bind, Permissions.require, hallows]
    rfl

theorem authorizeAll_of_may {operation : String} {access : Access} {resources : List String}
    (h : ∀ resource ∈ resources, actor.May s.permissions resource access) :
    authorizeAll env actor operation access resources s = (.ok ⟨⟩, s) := by
  induction resources with
  | nil => rfl
  | cons resource resources ih =>
    rw [authorizeAll, bind_apply, authorize_of_may (h resource List.mem_cons_self)]
    exact ih fun r hr => h r (List.mem_cons_of_mem resource hr)

theorem authorize_of_not_may {operation resource : String} {access : Access}
    (h : ¬actor.May s.permissions resource access) :
    authorize env actor operation resource access s =
      (.error (.permission (.denied actor.role resource access)),
        (record env (denial actor operation resource access s) s).2) := by
  obtain ⟨hb, hallows⟩ := not_or.mp h
  unfold authorize
  simp only [Bool.not_eq_true] at hb hallows
  simp only [hb, Bool.not_false, if_true, get_bind, Permissions.require, hallows]
  rfl

namespace Guarded

theorem authorize_bind {operation resource : String} {access : Access}
    {f : Unit → StoreAction σ α}
    (h : actor.May s.permissions resource access → Guarded env stored actor P s (f ⟨⟩ s)) :
    Guarded env stored actor P s ((authorize env actor operation resource access >>= f) s) := by
  rw [bind_apply]
  by_cases hmay : actor.May s.permissions resource access
  · rw [authorize_of_may hmay]
    exact h hmay
  · rw [authorize_of_not_may hmay]
    exact .refused (denied_record operation resource access s)

theorem authorizeAll_bind {operation : String} {access : Access} {resources : List String}
    {f : Unit → StoreAction σ α}
    (h : (∀ resource ∈ resources, actor.May s.permissions resource access) →
      Guarded env stored actor P s (f ⟨⟩ s)) :
    Guarded env stored actor P s
      ((authorizeAll env actor operation access resources >>= f) s) := by
  induction resources with
  | nil => exact h fun _ hr => nomatch hr
  | cons resource resources ih =>
    rw [authorizeAll, bind_assoc]
    refine authorize_bind fun hmay => ih fun hall => h fun r hr => ?_
    rcases List.mem_cons.mp hr with rfl | hr
    · exact hmay
    · exact hall r hr

theorem of_confining {u : Store σ} {a : StoreAction σ α} (h : Confining stored P a)
    (hu : Confined stored P s u) : Guarded env stored actor P s (a u) :=
  .passed (h.fails u) (trans_of (Confined stored P) hu (h.changes u))

theorem confining {a : StoreAction σ α} (h : Confining stored P a) :
    Guarded env stored actor P s (a s) :=
  of_confining h (refl_of (Confined stored P) s)

theorem bind {a : StoreAction σ α} {f : α → StoreAction σ β}
    (h : Guarded env stored actor P s (a s)) (hf : ∀ v, Confining stored P (f v)) :
    Guarded env stored actor P s ((a >>= f) s) := by
  rw [bind_apply]
  generalize a s = x at h
  cases h with
  | refused hd => exact .refused hd
  | @passed r t hr hc =>
    cases r with
    | ok v => exact of_confining (hf v) hc
    | error e => exact .passed (fun e' he => hr e' (by cases he; rfl)) hc

theorem audited (henv : env.Keeps stored) {operation entityType entityId : String}
    {a : StoreAction σ α} (h : Guarded env stored actor P s (a s)) :
    Guarded env stored actor P s
      (Store.audited env actor operation entityType entityId a s) := by
  rw [Store.audited, tryCatch_apply]
  generalize a s = x at h
  cases h with
  | refused hd => exact .refused hd
  | @passed r t hr hc =>
    cases r with
    | ok v => exact .passed hr hc
    | error e =>
      have hthrow : Confining stored P (throw e : StoreAction σ α) := .throw (hr e rfl)
      exact of_confining (audited_confining henv actor operation entityType entityId hthrow) hc

theorem backend_bind (henv : env.Keeps stored) {operation resource : String}
    {f : Backend σ → StoreAction σ α}
    (h : ∀ b ∈ env.backend, Guarded env stored actor P s (f b s)) :
    Guarded env stored actor P s ((backend env actor operation resource >>= f) s) := by
  unfold backend
  cases hb : env.backend with
  | some b => exact h b hb
  | none =>
    have hthrow : Confining stored P
        (throw (.unavailable .persistence) : StoreAction σ α) := .throw rfl
    exact confining (audited_confining henv actor operation "storage" resource hthrow)

/-- It does not matter that the stored namespaces have been listed before. -/
theorem after (henv : env.Keeps stored) {x : σ} (hx : env.Listed s.outside x)
    {y : Except StoreError α × Store σ}
    (h : Guarded env stored actor P { s with outside := x } y) :
    Guarded env stored actor P s y := by
  cases h with
  | refused hd =>
    obtain ⟨entry, z, ⟨hid, htime, hactor, hdenied⟩, hz, ht⟩ := hd
    exact .refused ⟨entry, z, ⟨hid, htime, hactor, hdenied⟩, hx.trans hz, ht⟩
  | passed hr hc =>
    refine .passed hr ⟨hc.permissions, hc.held, fun ns key hp => ?_⟩
    exact (hc.stored ns key hp).trans (congrFun₂ (hx.view henv.spares) ns key)

theorem storedSpaces_bind (henv : env.Keeps stored) {b : Backend σ} (hb : b ∈ env.backend)
    {ns : Option String} {f : List String → StoreAction σ α}
    (h : ∀ names x, Guarded env stored actor P { s with outside := x }
      (f names { s with outside := x })) :
    Guarded env stored actor P s ((storedSpaces b ns >>= f) s) := by
  cases ns with
  | some ns => exact h [] s.outside
  | none =>
    have hlist : (b.tryNamespaces s.outside).2 = (b.namespaces s.outside).2 :=
      tolerate_apply b.namespaces s.outside
    exact after henv (.single ⟨b, hb, hlist⟩) (h (b.tryNamespaces s.outside).1 _)

end Guarded

theorem set_guarded (henv : env.Keeps stored) {ns key : String} (v : Json) (opts : SetOptions)
    (hp : actor.May s.permissions (StorePath.mk ns key).resource .write → P ns key) :
    Guarded env stored actor P s (set env actor ns key v opts s) := by
  refine .authorize_bind fun hmay => .confining ?_
  refine (checkValue_confining henv actor _ v opts.schema).bind fun _ _ => .bind .get fun u _ => ?_
  dsimp only
  split
  · exact (log_confining henv actor "set" "context" _ _).bind fun _ _ => .pure trivial
  · refine (modify_confining fun s => .write (hp hmay) v s).bind fun _ _ => ?_
    refine (Meets.lift fun s => release_confined henv _ v s).bind fun _ _ => ?_
    exact (log_confining henv actor _ "context" _ _).bind fun _ _ => .pure trivial

theorem read_guarded (henv : env.Keeps stored) (ns key : String) :
    Guarded env stored actor P s (read env actor ns key s) := by
  refine .authorize_bind fun _ => .confining (.bind .get fun u _ => ?_)
  dsimp only
  split
  · refine (modify_confining fun s => .recordRead ns (some key) s).bind fun _ _ => ?_
    exact (log_confining henv actor "read" "context" _ _).bind fun _ _ => .pure trivial
  · exact (log_confining henv actor "read" "context" _ _).bind fun _ _ => .pure trivial

theorem readSpace_guarded (henv : env.Keeps stored) (ns : String) :
    Guarded env stored actor P s (readSpace env actor ns s) := by
  refine .authorize_bind fun _ => .confining (.bind .get fun u _ => ?_)
  dsimp only
  split
  · refine (modify_confining fun s => .recordRead ns none s).bind fun _ _ => ?_
    exact (log_confining henv actor "read" "namespace" ns _).bind fun _ _ => .pure trivial
  · exact (log_confining henv actor "read" "namespace" ns _).bind fun _ _ => .pure trivial

theorem delete_guarded (henv : env.Keeps stored) {ns : String} {key : Option String}
    (hp : actor.May s.permissions (resourceOf ns key) .delete →
      ∀ ns' key', Within ns key ns' key' → P ns' key') :
    Guarded env stored actor P s (delete env actor ns key s) := by
  refine .authorize_bind fun hmay => .confining (.bind .get fun u _ => ?_)
  have hremove (s : Store σ) : Confined stored P s (s.mapData (·.remove ns key)) :=
    .data (fun _ ns' key' hn => StoreData.value?_remove fun hw => hn (hp hmay ns' key' hw)) s
  refine (modify_confining hremove).bind fun _ _ => ?_
  refine (log_confining henv actor "delete" _ _ _).bind fun _ _ => ?_
  exact (dropObjects_confining henv _).bind fun _ _ => .pure trivial

theorem contains_guarded (henv : env.Keeps stored) (ns key : String) :
    Guarded env stored actor P s (contains env actor ns key s) := by
  refine .authorize_bind fun _ => .confining (.bind .get fun u _ => ?_)
  exact (log_confining henv actor "exists" "context" _ _).bind fun _ _ => .pure trivial

theorem keys_guarded (ns : String) :
    Guarded env stored actor P s (keys env actor ns s) :=
  .authorize_bind fun _ => .confining (.bind .get fun _ _ => .pure trivial)

theorem append_guarded (henv : env.Keeps stored) {ns key : String} (v : Json)
    (hp : actor.May s.permissions (StorePath.mk ns key).resource .write → P ns key) :
    Guarded env stored actor P s (append env actor ns key v s) := by
  refine .authorize_bind fun hmay => .confining (.bind .get fun u _ => ?_)
  have hlist (old : Option Json) : Confining stored P
      (Attempt.look fun _ => listOf ⟨ns, key⟩ old : StoreAction σ (List Json)) := by
    refine .look (fun _ _ _ => trivial) fun _ e he => ?_
    unfold listOf at he
    split at he <;> cases he
    rfl
  refine (audited_confining henv actor "append" "context" _ (hlist _)).bind fun items _ => ?_
  refine (modify_confining fun s => .write (hp hmay) _ s).bind fun _ _ => ?_
  exact (log_confining henv actor _ "context" _ _).bind fun _ _ => .pure trivial

theorem merge_guarded (henv : env.Keeps stored) {ns : String} {values : Table Json}
    (strategy : MergeStrategy)
    (hp : ∀ key, actor.May s.permissions (StorePath.mk ns key).resource .write → P ns key) :
    Guarded env stored actor P s (merge env actor ns values strategy s) := by
  refine .authorizeAll_bind fun hall => ?_
  have hkeys (key : String) (hk : key ∈ values.keys) : P ns key :=
    hp key (hall _ (List.mem_map_of_mem hk))
  rw [get_bind, modify_bind]
  -- What is written depends on what the store held when it was looked at, and only on that.
  refine .of_confining ?_ ?_
  · refine (Meets.lift fun s => releaseAll_confined henv _ _ s).bind fun _ _ => ?_
    exact (log_confining henv actor "merge" "namespace" ns _).bind fun _ _ => .pure trivial
  · refine ⟨rfl, fun ns' key' hn => StoreData.value?_merge (fun hw => hn ?_) strategy,
      fun _ _ _ => rfl⟩
    exact hw.1 ▸ hkeys key' hw.2

theorem snapshot_guarded (henv : env.Keeps stored) (ns : String) :
    Guarded env stored actor P s (snapshot env actor ns s) := by
  have htake (s : Store σ) : Confined stored P s
      { s with history := s.history ++ [s.picture ns] } :=
    ⟨rfl, fun _ _ _ => rfl, fun _ _ _ => rfl⟩
  refine .authorize_bind fun _ => .confining ?_
  refine (modify_confining htake).bind fun _ _ => .bind .get fun u _ => ?_
  exact (log_confining henv actor "snapshot" "snapshot" _ _).bind fun _ _ => .pure trivial

theorem restore_guarded (henv : env.Keeps stored) (id : Nat)
    (hp : ∀ ns, actor.May s.permissions (spaceResource ns) .write → ∀ key, P ns key) :
    Guarded env stored actor P s (restore env actor id s) := by
  rw [restore, get_bind]
  cases s.snapshot? id with
  | none =>
    refine .confining ?_
    exact (log_confining henv actor "restore" "snapshot" _ _).bind fun _ _ => .pure trivial
  | some snap =>
    refine .authorize_bind fun hmay => .confining (.bind .get fun u _ => ?_)
    have hreplace (s : Store σ) :
        Confined stored P s (s.mapData (·.replace s.now snap.ns snap.values)) :=
      .data (fun _ ns' key' hn => StoreData.value?_replace
        (fun hns => hn (hns ▸ hp snap.ns hmay key')) _) s
    refine (modify_confining hreplace).bind fun _ _ => ?_
    exact (log_confining henv actor "restore" "snapshot" _ _).bind fun _ _ => .pure trivial

theorem writePayload_confining (henv : env.Keeps stored) (ns key : String) (source : Source)
    (metadata : BinaryMetadata) :
    Confining stored P (writePayload env ns key source metadata) := by
  refine (look_confining fun _ => rfl).bind fun taken _ => ?_
  obtain ⟨head, rest⟩ := taken
  have hregister : Confining stored P (Attempt.alter fun s : Store σ => do
      let schemas ← (s.schemas.registerBinary metadata.format).mapError StoreError.validation
      return ((), { s with schemas })) := by
    refine .alter (fun s v t ht => ?_) fun s e he => ?_
    · cases hr : s.schemas.registerBinary metadata.format with
      | ok schemas =>
        rw [hr] at ht
        cases ht
        exact ⟨⟨rfl, fun _ _ _ => rfl, fun _ _ _ => rfl⟩, trivial⟩
      | error cause =>
        rw [hr] at ht
        cases ht
    · cases hr : s.schemas.registerBinary metadata.format with
      | ok schemas =>
        rw [hr] at he
        cases he
      | error cause =>
        rw [hr] at he
        cases he
        rfl
  refine hregister.bind fun _ _ => (look_confining fun _ => rfl).bind fun _ _ => ?_
  split
  · exact .pure trivial
  · refine (objects_confining env).bind fun o ho => ?_
    refine (tryOutside_confining (fun _ => rfl) ((henv.objects o ho).save ns key _)).bind ?_
    exact fun _ _ => .pure trivial

theorem savePayload_guarded (henv : env.Keeps stored) {ns key : String} (source : Source)
    (metadata : BinaryMetadata)
    (hp : actor.May s.permissions (StorePath.mk ns key).resource .write → P ns key) :
    Guarded env stored actor P s (savePayload env actor ns key source metadata s) := by
  refine .authorize_bind fun hmay => .confining ?_
  have hwrite := audited_confining henv actor "save_binary" "binary" (StorePath.mk ns key).resource
    (writePayload_confining (P := P) henv ns key source metadata)
  refine hwrite.bind fun written _ => .bind .get fun u _ => ?_
  refine (modify_confining fun s => .write (hp hmay) _ s).bind fun _ _ => ?_
  refine (Meets.lift fun s => release_confined henv _ _ s).bind fun _ _ => ?_
  exact (log_confining henv actor _ "binary" _ _).bind fun _ _ => .pure trivial

theorem descriptorOf_error {path : StorePath} {v : Option Json} {e : StoreError}
    (h : descriptorOf path v = .error e) : e.isRefusal = false := by
  cases v with
  | none =>
    cases h
    rfl
  | some v =>
    dsimp only [descriptorOf] at h
    split at h
    · cases h
      rfl
    · cases hd : Descriptor.decode v with
      | error cause =>
        rw [hd] at h
        cases h
        rfl
      | ok d =>
        rw [hd] at h
        change (if (!d.isConsistent) = true then _ else _) = _ at h
        split at h <;> cases h
        rfl

theorem readPayload_guarded (henv : env.Keeps stored) (operation ns key : String)
    (held : Bytes → α) {referred : ObjectStore σ → StorePath → Attempt σ ObjectError α}
    (hr : ∀ o ∈ env.objects, ∀ path x, stored (referred o path x).2 = stored x) :
    Guarded env stored actor P s (readPayload env actor operation ns key held referred s) := by
  refine .audited henv ((read_guarded henv ns key).bind fun found => ?_)
  refine .bind (.look (fun _ _ _ => trivial) fun _ _ he => descriptorOf_error he) fun d _ => ?_
  split
  · refine (objects_confining env).bind fun o ho => ?_
    exact tryOutside_confining (fun _ => rfl) (hr o ho _)
  · refine .look (fun _ _ _ => trivial) fun _ e he => ?_
    cases hb : inlineBytes d with
    | ok bytes =>
      rw [hb] at he
      cases he
    | error cause =>
      rw [hb] at he
      cases he
      obtain ⟨flaw, rfl⟩ := exists_of_mapError hb
      rfl

theorem loadAll_confining {b : Backend σ} (hb : b.Keeps stored) {spaces : List String}
    (hp : ∀ ns ∈ spaces, ∀ key, P ns key) : Confining stored P (loadAll b spaces) := by
  induction spaces with
  | nil => exact .pure trivial
  | cons ns spaces ih =>
    have hrest := ih fun ns' hns => hp ns' (List.mem_cons_of_mem ns hns)
    refine (onOutside_confining (hb.loadSpace_leaves ns)).bind fun loaded _ => ?_
    cases loaded with
    | none => exact hrest
    | some values =>
      have hextend (s : Store σ) : Confined stored P s (s.mapData (·.extend s.now ns values)) :=
        .data (fun _ ns' key' hn => StoreData.value?_extend
          (fun hns => hn (hns ▸ hp ns List.mem_cons_self key')) _) s
      exact (modify_confining hextend).bind fun _ _ => hrest.bind fun _ _ => .pure trivial

theorem save_guarded (henv : env.Keeps stored) (ns : Option String)
    (hp : ∀ ns, actor.May s.permissions (spaceResource ns) .read → ∀ key, P ns key) :
    Guarded env stored actor P s (save env actor ns s) := by
  refine .backend_bind henv fun b hb => .storedSpaces_bind henv hb fun names x => ?_
  rw [get_bind]
  refine .authorizeAll_bind fun hall => .confining ?_
  refine (onOutside_confining ((henv.backend b hb).syncAll_leaves fun ns hns => ?_)).bind ?_
  · exact hp ns (hall _ (List.mem_map_of_mem hns))
  · exact fun _ _ => (log_confining henv actor "save" "storage" _ _).bind fun _ _ => .pure trivial

theorem load_guarded (henv : env.Keeps stored) (ns : Option String)
    (hp : ∀ ns, actor.May s.permissions (spaceResource ns) .write → ∀ key, P ns key) :
    Guarded env stored actor P s (load env actor ns s) := by
  refine .backend_bind henv fun b hb => .storedSpaces_bind henv hb fun names x => ?_
  refine .authorizeAll_bind fun hall => .confining ?_
  refine (loadAll_confining (henv.backend b hb) fun ns hns => ?_).bind fun loaded _ => ?_
  · exact hp ns (hall _ (List.mem_map_of_mem hns))
  · exact (log_confining henv actor "load" "storage" _ _).bind fun _ _ => .pure trivial

theorem deleteStored_guarded (henv : env.Keeps stored) {ns : String} {key : Option String}
    (hp : actor.May s.permissions (resourceOf ns key) .delete →
      ∀ ns' key', Within ns key ns' key' → P ns' key') :
    Guarded env stored actor P s (deleteStored env actor ns key s) := by
  refine .backend_bind henv fun b hb => .authorize_bind fun hmay => .confining ?_
  refine (onOutside_confining ((henv.backend b hb).tryDelete_leaves (hp hmay))).bind ?_
  exact fun _ _ => (log_confining henv actor "delete" "storage" _ _).bind fun _ _ => .pure trivial

end Store
end Workflow
