import Workflow.Store.Basic

/-!
# Operations on keys and namespaces
-/
namespace Workflow

/-- How a value is set: whether over a value that is there, and what schema it must satisfy. -/
structure SetOptions where
  overwrite : Bool
  schema : Option String
  deriving DecidableEq, Repr, Inhabited

/-- A value is set whatever it is and whatever is there. -/
def SetOptions.default : SetOptions := ⟨true, none⟩

namespace Store
variable {σ : Type}

def writeName (old : Option Json) : String := if old.isSome then "update" else "create"

/-- Checks a value against a schema, if there is one to check against. A failure is recorded. -/
def checkValue (env : Environment σ) (actor : Actor) (resource : String) (v : Json) :
    Option String → StoreAction σ Unit
  | none => pure ()
  | some id => do
    match (← get).schemas.validate id v with
    | .ok _ => pure ()
    | .error e =>
      log env actor "set" "context" resource fun t =>
        (((t.withValues none (some v)).withMeta "schema_id" (.str id)).withMeta
          "success" (.bool false)).withMeta "error" (.str e.message)
      throw (.validation e)

/-- Sets the value of a key, and tells whether it was set: without overwriting, a value that is
there stays. -/
def set (env : Environment σ) (actor : Actor) (ns key : String) (v : Json) (opts : SetOptions) :
    StoreAction σ Bool := do
  let resource := (StorePath.mk ns key).resource
  authorize env actor "set" resource .write
  checkValue env actor resource v opts.schema
  let old := (← get).data.value? ns key
  if old.isSome && !opts.overwrite then
    log env actor "set" "context" resource fun t =>
      (t.withValues old (some v)).withMeta "skipped" (.bool true)
    return false
  modify fun s => s.mapData (·.write s.now ns key v)
  release env old v
  log env actor (writeName old) "context" resource (·.withValues old (some v))
  return true

def read (env : Environment σ) (actor : Actor) (ns key : String) :
    StoreAction σ (Option Json) := do
  let resource := (StorePath.mk ns key).resource
  authorize env actor "read" resource .read
  let found := (← get).data.value? ns key
  if found.isSome then modify fun s => s.mapData (·.recordRead s.now ns (some key))
  log env actor "read" "context" resource (·.withMeta "exists" (.bool found.isSome))
  return found

def readSpace (env : Environment σ) (actor : Actor) (ns : String) :
    StoreAction σ (Option (Table Json)) := do
  authorize env actor "read" (spaceResource ns) .read
  let found := (← get).data.space? ns
  if found.isSome then modify fun s => s.mapData (·.recordRead s.now ns none)
  log env actor "read" "namespace" ns (·.withMeta "exists" (.bool found.isSome))
  return found

/-- The places of the objects that a removed key or namespace referred to. -/
def referencesIn (key : Option String) (removed : Option Json) : List StorePath :=
  match removed, key with
  | some (.obj values), none => values.values.filterMap Descriptor.referenceOf
  | some v, some _ => (Descriptor.referenceOf v).toList
  | _, _ => []

/-- Deletes a key or a namespace, together with the objects that its values refer to, and tells
whether it was there. -/
def delete (env : Environment σ) (actor : Actor) (ns : String) (key : Option String) :
    StoreAction σ Bool := do
  let resource := resourceOf ns key
  authorize env actor "delete" resource .delete
  let removed := (← get).data.values.find ns key
  modify (·.mapData (·.remove ns key))
  log env actor "delete" (if key.isSome then "context" else "namespace") resource fun t =>
    (t.withValues removed none).withMeta "exists" (.bool removed.isSome)
  dropObjects env (referencesIn key removed)
  return removed.isSome

def contains (env : Environment σ) (actor : Actor) (ns key : String) : StoreAction σ Bool := do
  let resource := (StorePath.mk ns key).resource
  authorize env actor "exists" resource .read
  let found := ((← get).data.value? ns key).isSome
  log env actor "exists" "context" resource (·.withMeta "exists" (.bool found))
  return found

def keys (env : Environment σ) (actor : Actor) (ns : String) : StoreAction σ (List String) := do
  authorize env actor "list" (spaceResource ns) .read
  return ((← get).data.values.space ns).keys

/-- The list that a value is to be appended to: none yet, or the one that is there. -/
def listOf (path : StorePath) : Option Json → Except StoreError (List Json)
  | none => .ok []
  | some (.arr items) => .ok items
  | some _ => .error (.notAList path)

/-- Appends a value to the list of a key, and gives its new length. -/
def append (env : Environment σ) (actor : Actor) (ns key : String) (v : Json) :
    StoreAction σ Nat := do
  let path : StorePath := ⟨ns, key⟩
  authorize env actor "append" path.resource .write
  let old := (← get).data.value? ns key
  let items ← audited env actor "append" "context" path.resource
    (Attempt.look fun _ => listOf path old)
  let new := Json.arr (items ++ [v])
  modify fun s => s.mapData (·.write s.now ns key new)
  log env actor (writeName old) "context" path.resource fun t =>
    (t.withValues old (some new)).withMeta "append" (.bool true)
  return items.length + 1

/-- Releases the objects of values that were overwritten. -/
def releaseAll (env : Environment σ) (conflicts : Table Json) :
    List (String × Json) → StateM (Store σ) Unit
  | [] => pure ()
  | (key, v) :: rest => do
    release env (conflicts.get? key) v
    releaseAll env conflicts rest

/-- Merges values into a namespace, and gives the values that gave way. -/
def merge (env : Environment σ) (actor : Actor) (ns : String) (values : Table Json)
    (strategy : MergeStrategy) : StoreAction σ (Table Json) := do
  authorizeAll env actor "merge" .write
    (values.keys.map (fun key => (StorePath.mk ns key).resource))
  let s ← get
  let merged := s.data.merge s.now ns values strategy
  modify (·.mapData fun _ => merged.data)
  releaseAll env merged.conflicts merged.written
  log env actor "merge" "namespace" ns fun t =>
    (t.withValues (some (.obj merged.conflicts)) (some (.obj values))).withMeta
      "strategy" strategy.toJson
  return merged.conflicts

end Store
end Workflow
