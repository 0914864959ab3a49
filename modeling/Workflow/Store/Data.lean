import Workflow.Store.Values
import Workflow.Store.Metrics
import Workflow.Store.Merge

/-!
# The data of the store

Values together with how they are used. Every write counts, and what is removed is forgotten.
-/
namespace Workflow

/-- Values, and the metrics of the namespaces that were written. -/
structure StoreData where
  values : Values
  metrics : Table SpaceMetrics
  deriving Inhabited

namespace StoreData

def empty : StoreData := ⟨.empty, .empty⟩

def space? (d : StoreData) (ns : String) : Option (Table Json) := d.values.get? ns

def value? (d : StoreData) (ns key : String) : Option Json := d.values.value? ns key

def recordWrite (d : StoreData) (now : Instant) (ns key : String) (v : Json) : StoreData :=
  let m := (d.metrics.get? ns).getD (.unused now)
  { d with metrics := d.metrics.insert ns (m.write now key v.byteSize) }

/-- Counts that all values of a table were written. -/
def recordWrites (d : StoreData) (now : Instant) (ns : String) (values : Table Json) : StoreData :=
  values.entries.foldl (fun (d : StoreData) e => d.recordWrite now ns e.1 e.2) d

/-- Counts that a key was read, or a whole namespace. -/
def recordRead (d : StoreData) (now : Instant) (ns : String) (key : Option String) : StoreData :=
  match d.metrics.get? ns with
  | some m => { d with metrics := d.metrics.insert ns (m.read now key) }
  | none => d

def write (d : StoreData) (now : Instant) (ns key : String) (v : Json) : StoreData :=
  { d with values := d.values.put ns key v }.recordWrite now ns key v

/-- Writes values beside those that a namespace has. -/
def extend (d : StoreData) (now : Instant) (ns : String) (values : Table Json) : StoreData :=
  { d with values := d.values.putAll ns values }.recordWrites now ns values

def replace (d : StoreData) (now : Instant) (ns : String) (values : Table Json) : StoreData :=
  StoreData.recordWrites ⟨d.values.insert ns values, d.metrics.erase ns⟩ now ns values

def removeKey (d : StoreData) (ns key : String) : StoreData :=
  match d.value? ns key, d.metrics.get? ns with
  | none, _ => d
  | some _, none => { d with values := d.values.remove ns (some key) }
  | some _, some m => ⟨d.values.remove ns (some key), d.metrics.insert ns (m.forget key)⟩

def removeSpace (d : StoreData) (ns : String) : StoreData :=
  ⟨d.values.erase ns, d.metrics.erase ns⟩

def remove (d : StoreData) (ns : String) (key : Option String) : StoreData :=
  match key with
  | some k => d.removeKey ns k
  | none => d.removeSpace ns

/-- What a merge comes to: the data, the values that gave way, and the values written. -/
structure Merged where
  data : StoreData
  conflicts : Table Json
  written : List (String × Json)

/-- Merges one value into a namespace. A prior value that stays is not written anew. -/
def mergeMember (s : MergeStrategy) (now : Instant) (ns : String) (m : Merged)
    (member : String × Json) : Merged :=
  let (key, incoming) := member
  match m.data.value? ns key with
  | none => ⟨m.data.write now ns key incoming, m.conflicts, m.written ++ [(key, incoming)]⟩
  | some prior =>
    let (stays, reported) := s.settle prior incoming
    let conflicts := m.conflicts.insert key reported
    if s = .keep then { m with conflicts }
    else ⟨m.data.write now ns key stays, conflicts, m.written ++ [(key, stays)]⟩

/-- Merges values into a namespace, which is then there even without values. -/
def merge (d : StoreData) (now : Instant) (ns : String) (values : Table Json)
    (s : MergeStrategy) : Merged :=
  values.entries.foldl (mergeMember s now ns)
    ⟨{ d with values := d.values.ensure ns }, .empty, []⟩

end StoreData
end Workflow
