import Workflow.Attempt
import Workflow.Files.Tree
import Workflow.Json.Printer
import Workflow.Text.Utf8
import Workflow.Time.Instant

/-!
# The audit trail

Whatever is done to the store leaves an entry. The newest entries are kept, up to a number; queries
look at these, oldest first.
-/
namespace Workflow

/-- What an entry is known by: 128 bits, written as hexadecimal digits in five groups. -/
structure Identifier where
  bits : BitVec 128
  deriving DecidableEq, Repr, Inhabited

namespace Identifier

/-- The identifiers that are given out from a time on. They begin with its milliseconds, so that
later ones come behind earlier ones. -/
def since (t : Instant) (n : Nat) : Identifier :=
  let milliseconds := (t.nanos / 1000000).toNat % (1 <<< 48)
  ⟨.ofNat 128 ((milliseconds <<< 80) + (7 <<< 76) + (2 <<< 62) + n % (1 <<< 62))⟩

def text (i : Identifier) : String :=
  let digits := (List.range 32).map fun k =>
    Nat.digitChar (i.bits.toNat >>> (4 * (31 - k)) % 16)
  let group (start size : Nat) := String.ofList ((digits.drop start).take size)
  "-".intercalate [group 0 8, group 8 4, group 12 4, group 16 4, group 20 12]

end Identifier

structure TrailEntry where
  id : Identifier
  time : Instant
  operation : String
  entityType : String
  entityId : String
  actor : String
  oldValue : Option Json
  newValue : Option Json
  metadata : Table Json
  deriving Inhabited

namespace TrailEntry

def plain (id : Identifier) (time : Instant) (operation entityType entityId actor : String) :
    TrailEntry :=
  ⟨id, time, operation, entityType, entityId, actor, none, none, .empty⟩

def withValues (e : TrailEntry) (old new : Option Json) : TrailEntry :=
  { e with oldValue := old, newValue := new }

def withMeta (e : TrailEntry) (key : String) (value : Json) : TrailEntry :=
  { e with metadata := e.metadata.insert key value }

/-- The members of an entry in the order in which they are written. -/
def members (e : TrailEntry) : List (String × Json) :=
  [("id", .str e.id.text), ("timestamp", .str e.time.text), ("operation", .str e.operation),
    ("entity_type", .str e.entityType), ("entity_id", .str e.entityId), ("actor", .str e.actor)]
    ++ (e.oldValue.map (fun v => ("old_value", v))).toList
    ++ (e.newValue.map (fun v => ("new_value", v))).toList
    ++ [("metadata", .obj e.metadata)]

/-- An entry on one line, its members in their own order. -/
def line (e : TrailEntry) : String := String.ofList (Json.compactChars (.obj ⟨e.members⟩))

def toJson (e : TrailEntry) : Json := .mkObj e.members

end TrailEntry

/-- What entries must be like; a part that is not set fits all. -/
structure TrailQuery where
  operation : Option String := none
  entityType : Option String := none
  entityId : Option String := none
  actor : Option String := none
  since : Option Instant := none
  limit : Option Nat := none
  deriving Inhabited

def TrailQuery.fits (q : TrailQuery) (e : TrailEntry) : Bool :=
  q.operation.all (· == e.operation) && q.entityType.all (· == e.entityType)
    && q.entityId.all (· == e.entityId) && q.actor.all (· == e.actor)
    && q.since.all (fun t => t.nanos ≤ e.time.nanos)

/-- The newest entries, oldest first. -/
structure Trail where
  capacity : Nat
  entries : List TrailEntry
  positive : 0 < capacity
  within : entries.length ≤ capacity

namespace Trail

/-- How many entries are kept if nothing else is said. -/
def defaultCapacity : Nat := 10000

/-- A trail without entries that keeps at least one. -/
def empty (capacity : Nat) : Trail :=
  ⟨max capacity 1, [], Nat.lt_of_lt_of_le Nat.zero_lt_one (Nat.le_max_right _ _), Nat.zero_le _⟩

instance : Inhabited Trail := ⟨.empty defaultCapacity⟩

/-- Adds an entry; the oldest one makes room. -/
def record (t : Trail) (e : TrailEntry) : Trail where
  capacity := t.capacity
  entries := (if t.entries.length = t.capacity then t.entries.drop 1 else t.entries) ++ [e]
  positive := t.positive
  within := by
    have hpositive := t.positive
    have hwithin := t.within
    split <;> simp <;> omega

@[simp] theorem capacity_record (t : Trail) (e : TrailEntry) :
    (t.record e).capacity = t.capacity := rfl

/-- The entries that fit a query, the newest up to its limit. -/
def query (t : Trail) (q : TrailQuery) : List TrailEntry :=
  let fitting := t.entries.filter q.fits
  match q.limit with
  | none => fitting
  | some n => fitting.drop (fitting.length - n)

end Trail

/-- A destination of entries. It receives every entry, also those that the trail has dropped. -/
structure Sink (σ : Type) where
  append : TrailEntry → Attempt σ FileError Unit

namespace Sink

/-- A sink for a part of the state as one for the whole. -/
def through (p : Part τ σ) (s : Sink σ) : Sink τ := ⟨fun e => p.lift (s.append e)⟩

/-- Creates the file of a sink, with its directories, unless it is there. -/
def openLines (path : Tree.Path) : Attempt Tree FileError Unit := do
  Tree.createDirectories path.dropLast
  Attempt.alter fun t => (t.alter (fun
    | some (.directory _) => .error .isDirectory
    | some (.file content) => .ok (some (.file content))
    | none => .ok (some (.file []))) path).map (((), ·))

def lines (path : Tree.Path) : Sink Tree where
  append e := .alter fun t => do
    let t ← t.alter (fun
      | some (.file content) => .ok (some (.file (content ++ Text.utf8 (e.line ++ "\n"))))
      | some (.directory _) => .error .isDirectory
      | none => .error .notFound) path
    return ((), t)

end Sink
end Workflow
