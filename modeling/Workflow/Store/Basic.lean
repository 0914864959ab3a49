import Workflow.Store.Data
import Workflow.Store.Error
import Workflow.Storage.Backend
import Workflow.Trail.Basic

/-!
# The store

The store holds data, snapshots of namespaces, permissions, schemas and a trail. Around it lies what
it writes to: a backend for values, a place for objects, a sink for the trail, all of which work on
a state of their own.

Every operation asks for permission first, and leaves an entry in the trail both when it is refused
and when it is done.
-/
namespace Workflow

/-- What a namespace held at a time. Snapshots are known by their positions in history, from one
on. -/
structure Snapshot where
  id : Nat
  ns : String
  values : Table Json
  createdAt : Instant
  deriving Inhabited

/-- The store, with the state of what lies outside. The clock is a part of it: what time it is,
which stands still during an operation, and the identifiers that entries will be given one after the
other. -/
structure Store (σ : Type) where
  data : StoreData
  history : List Snapshot
  permissions : Permissions
  schemas : SchemaRegistry
  trail : Trail
  now : Instant
  ids : Nat → Identifier
  outside : σ

/-- What a store works with. A payload shorter than the threshold is kept in its descriptor. -/
structure Environment (σ : Type) where
  backend : Option (Backend σ)
  objects : Option (ObjectStore σ)
  sink : Option (Sink σ)
  inlineThreshold : Nat

abbrev StoreAction (σ α : Type) := Attempt (Store σ) StoreError α

def Environment.defaultThreshold : Nat := 65536

def spaceResource (ns : String) : String := ns ++ ".*"

/-- The resource that a key, or a whole namespace, is to the policies. -/
def resourceOf (ns : String) : Option String → String
  | some key => (StorePath.mk ns key).resource
  | none => spaceResource ns

namespace Store
variable {σ : Type}

def outsidePart : Part (Store σ) σ := ⟨Store.outside, fun o s => { s with outside := o }⟩

def mapData (f : StoreData → StoreData) (s : Store σ) : Store σ := { s with data := f s.data }

def onOutside (a : StateM σ α) : StoreAction σ α := ExceptT.lift (outsidePart.run a)

/-- Attempts something outside, whose errors are errors of the store. -/
def tryOutside (f : ε → StoreError) (a : Attempt σ ε α) : StoreAction σ α :=
  (outsidePart.lift a).mapError f

/-- Records an entry, in the trail whether or not the sink takes it. Its identifier is used up. -/
def record (env : Environment σ) (e : TrailEntry) : StateM (Store σ) Unit := do
  match env.sink with
  | some sink => let _ ← outsidePart.run (sink.append e).tolerate
  | none => pure ()
  modify fun s => { s with trail := s.trail.record e, ids := fun n => s.ids (n + 1) }

def log (env : Environment σ) (actor : Actor) (operation entityType entityId : String)
    (details : TrailEntry → TrailEntry) : StateM (Store σ) Unit := do
  let s ← get
  record env (details (.plain (s.ids 0) s.now operation entityType entityId actor.role))

/-- Runs an operation; if it fails otherwise than by a refusal, records that. -/
def audited (env : Environment σ) (actor : Actor) (operation entityType entityId : String)
    (a : StoreAction σ α) : StoreAction σ α :=
  tryCatch a fun e => do
    if !e.isRefusal then
      log env actor operation entityType entityId fun t =>
        (t.withMeta "success" (.bool false)).withMeta "error" (.str e.message)
    throw e

/-- Asks whether an actor may have access to a resource. A refusal is recorded. -/
def authorize (env : Environment σ) (actor : Actor) (operation resource : String)
    (access : Access) : StoreAction σ Unit := do
  if !actor.bypass then
    match (← get).permissions.require actor.role resource access with
    | .ok _ => pure ()
    | .error e =>
      log env actor operation "context" resource fun t =>
        (t.withMeta "denied" (.bool true)).withMeta "action" (.str access.name)
      throw (.permission e)

def authorizeAll (env : Environment σ) (actor : Actor) (operation : String) (access : Access) :
    List String → StoreAction σ Unit
  | [] => pure ()
  | resource :: rest => do
    authorize env actor operation resource access
    authorizeAll env actor operation access rest

/-- The backend; that there is none is recorded. -/
def backend (env : Environment σ) (actor : Actor) (operation resource : String) :
    StoreAction σ (Backend σ) :=
  match env.backend with
  | some b => pure b
  | none => audited env actor operation "storage" resource (throw (.unavailable .persistence))

def objects (env : Environment σ) : StoreAction σ (ObjectStore σ) :=
  match env.objects with
  | some o => pure o
  | none => throw (.unavailable .objects)

def deleteObjects (o : ObjectStore σ) : List StorePath → StoreAction σ Unit
  | [] => pure ()
  | path :: rest => do
    let _ ← tryOutside .object (o.delete path.ns path.key)
    deleteObjects o rest

/-- Deletes the objects that removed values referred to. -/
def dropObjects (env : Environment σ) (paths : List StorePath) : StoreAction σ Unit := do
  if !paths.isEmpty then
    deleteObjects (← objects env) paths

/-- Deletes the object of a replaced value unless the new value refers to it too. The new value is
there already, so that a failure changes nothing. -/
def release (env : Environment σ) (old : Option Json) (new : Json) : StateM (Store σ) Unit :=
  match old.bind Descriptor.referenceOf with
  | none => pure ()
  | some path =>
    if Descriptor.referenceOf new = some path then pure ()
    else do let _ ← (dropObjects env [path]).tolerate

def namespaces (s : Store σ) : List String := s.data.values.keys

def metrics? (s : Store σ) (ns : String) : Option SpaceMetrics := s.data.metrics.get? ns

def snapshot? (s : Store σ) (id : Nat) : Option Snapshot :=
  if id = 0 then none else s.history[id - 1]?

end Store
end Workflow
