import Workflow.Json.Basic

/-!
# Tables under construction

While a document is read, each of its tables remembers how it came to be: a table is defined by a
header, by a dotted key, or is only implied by the headers of tables inside it. This decides what
may still be added to it.
-/
namespace Workflow.Toml

/-- How a table came to be. -/
inductive Origin where
  | defined
  | dotted
  | implied
  deriving DecidableEq, Repr, Inhabited

/-- A value, a table, or a list of tables that were each defined by a header. -/
inductive Node where
  | value (v : Json)
  | table (origin : Origin) (members : Table Node)
  | tables (items : List (Table Node))
  deriving Inhabited

namespace Node

mutual

def toJson : Node → Json
  | value v => v
  | table _ ⟨members⟩ => .obj ⟨membersToJson members⟩
  | tables items => .arr (itemsToJson items)

def membersToJson : List (String × Node) → List (String × Json)
  | [] => []
  | (k, n) :: rest => (k, n.toJson) :: membersToJson rest

def itemsToJson : List (Table Node) → List Json
  | [] => []
  | ⟨members⟩ :: rest => .obj ⟨membersToJson members⟩ :: itemsToJson rest

end

def tableToJson (t : Table Node) : Table Json := ⟨membersToJson t.entries⟩

/-- Changes a table inside a table, by the names that lead to it. Tables that are not there are
made. A list of tables stands for the last of them. Dotted keys do not lead into tables that were
defined. -/
def descend (dotted : Bool) (f : Origin → Table Node → Option (Table Node)) :
    List String → Origin → Table Node → Option (Table Node)
  | [], origin, t => f origin t
  | k :: rest, _, t =>
    match t.get? k with
    | none =>
      let origin := if dotted then Origin.dotted else .implied
      (descend dotted f rest origin .empty).map fun u => t.insert k (table origin u)
    | some (value _) => none
    | some (table origin u) =>
      if dotted ∧ origin = .defined then none
      else (descend dotted f rest origin u).map fun u => t.insert k (table origin u)
    | some (tables items) =>
      let last := items.getLast?.getD .empty
      (descend dotted f rest .defined last).map fun u => t.insert k (tables (items.dropLast ++ [u]))

/-- Adds a value under a key that is not there yet. A table that is reached by a dotted key must
have been made by one. -/
def addValue (path : List String) (name : String) (v : Json) (t : Table Node) :
    Option (Table Node) :=
  descend true (fun origin t =>
    if ((origin == .dotted) == path.isEmpty) || t.contains name then none
    else some (t.insert name (value v))) path .defined t

/-- The parts of a key before the last, and the last. -/
def splitLast (key : List String) : List String × String := (key.dropLast, key.getLast?.getD "")

/-- Adds a value under a dotted key. -/
def assign (key : List String) (v : Json) (t : Table Node) : Option (Table Node) :=
  addValue (splitLast key).1 (splitLast key).2 v t

/-- Defines a table by a header; it may have been implied before, but no more than that. -/
def define (key : List String) (root : Table Node) : Option (Table Node) :=
  descend false (fun _ t =>
    match t.get? (splitLast key).2 with
    | none => some (t.insert (splitLast key).2 (table .defined .empty))
    | some (table .implied members) =>
      some (t.insert (splitLast key).2 (table .defined members))
    | some _ => none) (splitLast key).1 .defined root

/-- Adds a table to a list of tables by a header. -/
def defineItem (key : List String) (root : Table Node) : Option (Table Node) :=
  descend false (fun _ t =>
    match t.get? (splitLast key).2 with
    | none => some (t.insert (splitLast key).2 (tables [.empty]))
    | some (tables items) => some (t.insert (splitLast key).2 (tables (items ++ [.empty])))
    | some _ => none) (splitLast key).1 .defined root

end Node
end Workflow.Toml
