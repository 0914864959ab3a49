/-!
# Tables: finite maps with text keys

A table is a list of pairs that `insert` keeps in increasing order of the keys, so that walking a
table, printing it or listing its keys always meets the keys in the order of their code points.
The view of a table is `get?`: every operation is described by what it does to `get?`, and these
laws need no assumption on the order of the pairs.

The order is no field of a table. A value of JSON holds a table of such values, and the definition
of a type cannot ask for the keys of a table whose values are of this very type. What holds only of
tables in key order has `Sorted` as a hypothesis; that `insert` and all that is built from it keep
the order is proved of them once.
-/
namespace Workflow

/-- A finite map from text to `α`, written as a list of pairs. -/
structure Table (α : Type u) where
  entries : List (String × α)
  deriving Inhabited, DecidableEq, Repr

namespace Table
variable {α : Type u} {β : Type v}

def empty : Table α := ⟨[]⟩

def singleton (k : String) (v : α) : Table α := ⟨[(k, v)]⟩

/-- Puts a pair in its place among pairs in key order, in the place of one with the same key. -/
def insertEntry (k : String) (v : α) : List (String × α) → List (String × α)
  | [] => [(k, v)]
  | (j, w) :: rest =>
    if k = j then (k, v) :: rest
    else if k < j then (k, v) :: (j, w) :: rest
    else (j, w) :: insertEntry k v rest

/-- Binds `k` to `v`, whatever it was bound to before. -/
def insert (t : Table α) (k : String) (v : α) : Table α := ⟨insertEntry k v t.entries⟩

/-- The value of the first pair with the given key. -/
def lookup (k : String) : List (String × α) → Option α
  | [] => none
  | (j, w) :: rest => if k = j then some w else lookup k rest

def get? (t : Table α) (k : String) : Option α := lookup k t.entries

def contains (t : Table α) (k : String) : Bool := (t.get? k).isSome

def erase (t : Table α) (k : String) : Table α := ⟨t.entries.filter (fun p => p.1 ≠ k)⟩

def keys (t : Table α) : List String := t.entries.map (·.1)

def values (t : Table α) : List α := t.entries.map (·.2)

def size (t : Table α) : Nat := t.entries.length

def isEmpty (t : Table α) : Bool := t.entries.isEmpty

/-- Binds every pair of a list in turn, so that the last pair of a key wins. -/
def insertAll (t : Table α) (pairs : List (String × α)) : Table α :=
  pairs.foldl (fun acc p => acc.insert p.1 p.2) t

/-- The table of a list of pairs; the last pair of a key wins. -/
def ofList (pairs : List (String × α)) : Table α := empty.insertAll pairs

/-- Both tables together; the second wins where both bind a key. -/
def union (t u : Table α) : Table α := t.insertAll u.entries

def filter (t : Table α) (p : String → α → Bool) : Table α :=
  ⟨t.entries.filter (fun e => p e.1 e.2)⟩

def map (f : α → β) (t : Table α) : Table β := ⟨t.entries.map (fun e => (e.1, f e.2))⟩

/-- The keys stand in strictly increasing order. -/
def Sorted (t : Table α) : Prop := t.entries.Pairwise (fun p q => p.1 < q.1)

@[simp] theorem get?_empty (k : String) : (empty : Table α).get? k = none := rfl

theorem lookup_insertEntry_self (k : String) (v : α) (es : List (String × α)) :
    lookup k (insertEntry k v es) = some v := by
  induction es with
  | nil => simp [insertEntry, lookup]
  | cons e es ih =>
    obtain ⟨j, w⟩ := e
    by_cases h : k = j
    · simp [insertEntry, lookup, h]
    · by_cases hlt : k < j <;> simp [insertEntry, lookup, h, hlt, ih]

theorem lookup_insertEntry_of_ne {k j : String} (h : j ≠ k) (v : α) (es : List (String × α)) :
    lookup j (insertEntry k v es) = lookup j es := by
  induction es with
  | nil => simp [insertEntry, lookup, h]
  | cons e es ih =>
    obtain ⟨i, w⟩ := e
    by_cases hk : k = i
    · subst hk
      simp [insertEntry, lookup, h]
    · by_cases hlt : k < i
      · simp [insertEntry, lookup, h, hk, hlt]
      · simp [insertEntry, lookup, hk, hlt, ih]

@[simp] theorem get?_insert_self (t : Table α) (k : String) (v : α) :
    (t.insert k v).get? k = some v :=
  lookup_insertEntry_self k v t.entries

theorem get?_insert_of_ne (t : Table α) {k j : String} (h : j ≠ k) (v : α) :
    (t.insert k v).get? j = t.get? j :=
  lookup_insertEntry_of_ne h v t.entries

theorem get?_insert (t : Table α) (k j : String) (v : α) :
    (t.insert k v).get? j = if j = k then some v else t.get? j := by
  by_cases h : j = k
  · subst h
    simp
  · simp [get?_insert_of_ne t h, h]

theorem lookup_filter_ne (k j : String) (es : List (String × α)) :
    lookup j (es.filter (fun p => p.1 ≠ k)) = if j = k then none else lookup j es := by
  induction es with
  | nil => simp [lookup]
  | cons e es ih =>
    obtain ⟨i, w⟩ := e
    by_cases hi : i = k <;> by_cases hj : j = k <;> by_cases hji : j = i <;>
      simp_all [lookup]

theorem get?_erase (t : Table α) (k j : String) :
    (t.erase k).get? j = if j = k then none else t.get? j :=
  lookup_filter_ne k j t.entries

@[simp] theorem get?_erase_self (t : Table α) (k : String) : (t.erase k).get? k = none := by
  simp [get?_erase]

end Table
end Workflow
