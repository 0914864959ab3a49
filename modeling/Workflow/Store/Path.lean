import Workflow.Json.Record

/-!
# Paths into the store

Values are stored under a key in a namespace. The two are written with a dot between them; the
namespace ends at the first one, so that keys may contain dots.
-/
namespace Workflow

structure StorePath where
  ns : String
  key : String
  deriving DecidableEq, Repr, Inhabited

namespace StorePath

def splitDot? (text : String) : Option (String × String) :=
  let cs := text.toList
  match cs.dropWhile (· != '.') with
  | [] => none
  | _ :: rest => some (String.ofList (cs.takeWhile (· != '.')), String.ofList rest)

/-- The path that a text writes; neither of its parts is empty. -/
def parse? (text : String) : Option StorePath :=
  match splitDot? text with
  | some (ns, key) => if ns.isEmpty || key.isEmpty then none else some ⟨ns, key⟩
  | none => none

/-- The text of a path, which policies and the trail name it by. -/
def resource (p : StorePath) : String := p.ns ++ "." ++ p.key

def record : Record StorePath :=
  StorePath.mk <$> .required "namespace" .text <*> .required "key" .text

def toJson (p : StorePath) : Json := .mkObj [("namespace", .str p.ns), ("key", .str p.key)]

end StorePath
end Workflow
