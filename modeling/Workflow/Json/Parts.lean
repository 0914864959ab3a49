import Workflow.Json.Basic
import Workflow.Decimal.Numeral

/-!
# Parts of a value

A path leads from a value to one of its parts: a key of it to the member of an object with that
name, or to the item of a list with that index. How many parts a value has, and how deep they lie,
bounds how often a recursion through it can go on.
-/
namespace Workflow.Json

/-- What one step of a path leads to: the member of an object or the item of a list. -/
def child? (key : String) : Json → Option Json
  | .obj fields => fields.get? key
  | .arr items => (Decimal.readUnsigned? key.toList).bind (fun i => items[i]?)
  | _ => none

def walk? (v : Json) : List String → Option Json
  | [] => some v
  | key :: rest => (v.child? key).bind (fun w => w.walk? rest)


mutual

/-- The greatest number of values one inside another. -/
def depth : Json → Nat
  | .arr items => itemsDepth items + 1
  | .obj ⟨members⟩ => membersDepth members + 1
  | _ => 1

def itemsDepth : List Json → Nat
  | [] => 0
  | v :: rest => max v.depth (itemsDepth rest)

def membersDepth : List (String × Json) → Nat
  | [] => 0
  | (_, v) :: rest => max v.depth (membersDepth rest)

end

mutual

/-- The number of values inside a value, itself included. -/
def count : Json → Nat
  | .arr items => itemsCount items + 1
  | .obj ⟨members⟩ => membersCount members + 1
  | _ => 1

def itemsCount : List Json → Nat
  | [] => 0
  | v :: rest => v.count + itemsCount rest

def membersCount : List (String × Json) → Nat
  | [] => 0
  | (_, v) :: rest => v.count + membersCount rest

end

end Workflow.Json
