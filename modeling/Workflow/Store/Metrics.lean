import Workflow.Json.Printer
import Workflow.Time.Instant

/-!
# How values are used

For each key the store counts how often it was read or written and how many bytes its value has as
JSON; for each namespace it counts all uses and adds up the bytes of its keys. It also keeps the
times of the first and the latest use.
-/
namespace Workflow

structure KeyMetrics where
  accessCount : Nat
  sizeBytes : Nat
  createdAt : Instant
  lastAccessed : Instant
  lastModified : Instant
  deriving DecidableEq, Repr, Inhabited

def KeyMetrics.unused (now : Instant) (size : Nat) : KeyMetrics := ⟨0, size, now, now, now⟩

structure SpaceMetrics where
  accessCount : Nat
  sizeBytes : Nat
  createdAt : Instant
  lastAccessed : Instant
  keys : Table KeyMetrics
  deriving DecidableEq, Repr, Inhabited

def Json.byteSize (v : Json) : Nat := v.compact.utf8ByteSize

namespace SpaceMetrics

def unused (now : Instant) : SpaceMetrics := ⟨0, 0, now, now, .empty⟩

/-- The number of bytes of the values of keys. -/
def total (keys : Table KeyMetrics) : Nat := keys.values.foldr (fun k sum => k.sizeBytes + sum) 0

/-- Counts that a value of some size was written. For a key this is a change, not an access. -/
def write (m : SpaceMetrics) (now : Instant) (key : String) (size : Nat) : SpaceMetrics :=
  let used := (m.keys.get? key).getD (.unused now size)
  let keys := m.keys.insert key
    { used with accessCount := used.accessCount + 1, sizeBytes := size, lastModified := now }
  { m with accessCount := m.accessCount + 1, sizeBytes := total keys, lastAccessed := now, keys }

/-- Counts that a key was read, or the whole namespace. -/
def read (m : SpaceMetrics) (now : Instant) (key : Option String) : SpaceMetrics :=
  let keys := match key with
    | none => m.keys
    | some k =>
      match m.keys.get? k with
      | some used =>
        m.keys.insert k { used with accessCount := used.accessCount + 1, lastAccessed := now }
      | none => m.keys
  { m with accessCount := m.accessCount + 1, lastAccessed := now, keys }

def forget (m : SpaceMetrics) (key : String) : SpaceMetrics :=
  let keys := m.keys.erase key
  { m with sizeBytes := total keys, keys }

end SpaceMetrics
end Workflow
