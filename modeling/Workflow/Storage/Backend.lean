import Workflow.Store.Values
import Workflow.Attempt
import Workflow.Files.Tree

/-!
# Storage of values

A backend keeps values under keys in namespaces. Each of its operations may fail. Around them stand
operations that do not fail but tell whether they succeeded.
-/
namespace Workflow

inductive PersistenceError where
  | file (cause : FileError)
  | serialization
  | invalidName (name : String)
  deriving DecidableEq, Repr, Inhabited

/-- The wording of an error. How a file fails to hold a value is not told. -/
def PersistenceError.message : PersistenceError → String
  | file cause => s!"persistence I/O error: {cause.message}"
  | serialization => "persistence serialization error"
  | invalidName name => s!"invalid persistence name: '{name}'"

/-- A place for values that outlasts the store. Without a key, `load` gives the values of a whole
namespace as an object, and `delete` removes it. -/
structure Backend (σ : Type) where
  save : String → String → Json → Attempt σ PersistenceError Unit
  load : String → Option String → Attempt σ PersistenceError (Option Json)
  delete : String → Option String → Attempt σ PersistenceError Bool
  namespaces : Attempt σ PersistenceError (List String)

namespace Backend

/-- A backend for a part of the state as one for the whole. -/
def through (p : Part τ σ) (b : Backend σ) : Backend τ where
  save ns key v := p.lift (b.save ns key v)
  load ns key := p.lift (b.load ns key)
  delete ns key := p.lift (b.delete ns key)
  namespaces := p.lift b.namespaces

def memory : Backend Values where
  save ns key v := .alter fun vs => .ok ((), vs.put ns key v)
  load ns key := .look fun vs => .ok (vs.find ns key)
  delete ns key := .alter fun vs => .ok ((vs.find ns key).isSome, vs.remove ns key)
  namespaces := .look fun vs => .ok vs.keys

def trySave (b : Backend σ) (ns key : String) (v : Json) : StateM σ Bool := do
  return (← Attempt.tolerate (b.save ns key v)).isSome

/-- Saves values one after the other, all of them even if some fail. -/
def saveMembers (b : Backend σ) (ns : String) : List (String × Json) → StateM σ Bool
  | [] => return true
  | (k, v) :: rest => do
    let saved ← b.trySave ns k v
    let others ← saveMembers b ns rest
    return saved && others

/-- Deletes keys one after the other, all of them even if some fail. -/
def deleteKeys (b : Backend σ) (ns : String) : List String → StateM σ Bool
  | [] => return true
  | k :: rest => do
    let deleted ← Attempt.tolerate (b.delete ns (some k))
    let others ← deleteKeys b ns rest
    return deleted.isSome && others

/-- Makes a stored namespace hold exactly the given values: saves them, then deletes what else is
there. Without values the namespace is removed. -/
def sync (b : Backend σ) (ns : String) (values : Table Json) : StateM σ Bool := do
  if values.isEmpty then
    return (← Attempt.tolerate (b.delete ns none)).isSome
  let saved ← b.saveMembers ns values.entries
  match ← Attempt.tolerate (b.load ns none) with
  | none => return false
  | some (some (.obj stored)) =>
    let stale := stored.keys.filter (fun k => !values.contains k)
    let deleted ← b.deleteKeys ns stale
    return saved && deleted
  | some _ => return saved

/-- Makes stored namespaces hold exactly the given values, one after the other, all of them even if
some fail. -/
def syncAll (b : Backend σ) : List (String × Table Json) → StateM σ Bool
  | [] => return true
  | (ns, values) :: rest => do
    let synced ← b.sync ns values
    let others ← syncAll b rest
    return synced && others

def tryLoad (b : Backend σ) (ns key : String) : StateM σ (Option Json) := do
  return (← Attempt.tolerate (b.load ns (some key))).join

def loadSpace (b : Backend σ) (ns : String) : StateM σ (Option (Table Json)) := do
  return ((← Attempt.tolerate (b.load ns none)).join).bind Json.obj?

/-- Deletes a key or a namespace, and tells whether it was there. -/
def tryDelete (b : Backend σ) (ns : String) (key : Option String) : StateM σ Bool := do
  return (← Attempt.tolerate (b.delete ns key)).getD false

/-- The stored namespaces, none if they cannot be listed. -/
def tryNamespaces (b : Backend σ) : StateM σ (List String) := do
  return (← Attempt.tolerate b.namespaces).getD []

end Backend
end Workflow
