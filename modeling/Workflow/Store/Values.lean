import Workflow.Json.Basic

/-!
# Values by namespace and key

What the store holds, and what is stored of it elsewhere, are values under a key in a namespace. A
namespace may be there without holding anything.
-/
namespace Workflow

abbrev Values := Table (Table Json)

namespace Values

/-- The values of a namespace, none if it is not there. -/
def space (vs : Values) (ns : String) : Table Json := (vs.get? ns).getD .empty

def value? (vs : Values) (ns key : String) : Option Json := (vs.get? ns).bind (fun t => t.get? key)

def put (vs : Values) (ns key : String) (v : Json) : Values :=
  vs.insert ns ((vs.space ns).insert key v)

/-- The value of a key, or all values of a namespace as an object. -/
def find (vs : Values) (ns : String) (key : Option String) : Option Json :=
  match key with
  | some k => vs.value? ns k
  | none => (vs.get? ns).map .obj

/-- Removes a key or a namespace. A namespace stays when its last key is removed. -/
def remove (vs : Values) (ns : String) (key : Option String) : Values :=
  match vs.get? ns, key with
  | none, _ => vs
  | some t, some k => vs.insert ns (t.erase k)
  | some _, none => vs.erase ns

/-- Puts values under the keys of a namespace, which is then there even without values. -/
def putAll (vs : Values) (ns : String) (values : Table Json) : Values :=
  vs.insert ns ((vs.space ns).union values)

def ensure (vs : Values) (ns : String) : Values := vs.insert ns (vs.space ns)

end Values
end Workflow
