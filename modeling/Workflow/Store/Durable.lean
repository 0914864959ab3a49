import Workflow.Store.Basic

/-!
# Snapshots and persistence

A snapshot keeps the values of a namespace inside the store. Namespaces are also saved to a backend
and loaded from it, one of them or all.
-/
namespace Workflow.Store
variable {σ : Type}

/-- The next snapshot, of what a namespace holds now. -/
def picture (s : Store σ) (ns : String) : Snapshot :=
  ⟨s.history.length + 1, ns, s.data.values.space ns, s.now⟩

/-- Takes a snapshot of a namespace, and gives its number. A namespace that is not there has one
without values. -/
def snapshot (env : Environment σ) (actor : Actor) (ns : String) : StoreAction σ Nat := do
  authorize env actor "snapshot" (spaceResource ns) .read
  modify fun s => { s with history := s.history ++ [s.picture ns] }
  let id := (← get).history.length
  log env actor "snapshot" "snapshot" (toString id) (·.withMeta "namespace" (.str ns))
  return id

/-- Makes the namespace of a snapshot what it was then, and tells whether there is a snapshot of
this number. -/
def restore (env : Environment σ) (actor : Actor) (id : Nat) : StoreAction σ Bool := do
  match (← get).snapshot? id with
  | none =>
    log env actor "restore" "snapshot" (toString id) (·.withMeta "found" (.bool false))
    return false
  | some snap =>
    authorize env actor "restore" (spaceResource snap.ns) .write
    let previous := (← get).data.space? snap.ns
    modify fun s => s.mapData (·.replace s.now snap.ns snap.values)
    log env actor "restore" "snapshot" (toString id) fun t =>
      ((t.withValues (previous.map .obj) (some (.obj snap.values))).withMeta
        "namespace" (.str snap.ns)).withMeta "found" (.bool true)
    return true

/-- How the trail calls one namespace, or all of them. -/
def scopeName (ns : Option String) : String := ns.getD "*"

/-- What one namespace, or all of them and those that are stored, shall hold. -/
def scope (vs : Values) (stored : List String) : Option String → Values
  | some ns => .singleton ns (vs.space ns)
  | none => stored.foldl Values.ensure vs

/-- The stored namespaces that an operation on one namespace, or on all, has to know of. -/
def storedSpaces (b : Backend σ) : Option String → StoreAction σ (List String)
  | some _ => pure []
  | none => onOutside b.tryNamespaces

/-- Makes the backend hold what one namespace holds, or all of them; then nothing else stays there.
Tells whether all went well. -/
def save (env : Environment σ) (actor : Actor) (ns : Option String) : StoreAction σ Bool := do
  let b ← backend env actor "save" (scopeName ns)
  let stored ← storedSpaces b ns
  let spaces := scope (← get).data.values stored ns
  authorizeAll env actor "save_to_storage" .read (spaces.keys.map spaceResource)
  let done ← onOutside (b.syncAll spaces.entries)
  log env actor "save" "storage" (scopeName ns) fun t =>
    (t.withMeta "namespaces" (.nat spaces.size)).withMeta "success" (.bool done)
  return done

/-- Loads namespaces one after the other. Gives the number of those that could be loaded. -/
def loadAll (b : Backend σ) : List String → StoreAction σ Nat
  | [] => return 0
  | ns :: rest => do
    match ← onOutside (b.loadSpace ns) with
    | none => loadAll b rest
    | some values =>
      modify fun s => s.mapData (·.extend s.now ns values)
      return (← loadAll b rest) + 1

/-- Loads one namespace, or all that are stored, over what is there. Tells whether all went well. -/
def load (env : Environment σ) (actor : Actor) (ns : Option String) : StoreAction σ Bool := do
  let b ← backend env actor "load" (scopeName ns)
  let stored ← storedSpaces b ns
  let targets := ns.elim stored (fun ns => [ns])
  authorizeAll env actor "load_from_storage" .write (targets.map spaceResource)
  let loaded ← loadAll b targets
  let done := loaded == targets.length
  log env actor "load" "storage" (scopeName ns) fun t =>
    (t.withMeta "namespaces" (.nat loaded)).withMeta "success" (.bool done)
  return done

/-- Deletes what is stored of a key or a namespace; what the store holds stays. Tells whether it was
there. -/
def deleteStored (env : Environment σ) (actor : Actor) (ns : String) (key : Option String) :
    StoreAction σ Bool := do
  let resource := resourceOf ns key
  let b ← backend env actor "delete" resource
  authorize env actor "delete_from_storage" resource .delete
  let done ← onOutside (b.tryDelete ns key)
  log env actor "delete" "storage" resource (·.withMeta "success" (.bool done))
  return done

end Workflow.Store
