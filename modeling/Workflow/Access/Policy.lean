import Workflow.Json.Record

/-!
# Policies

A policy allows or forbids a role some kinds of access to the resources that a pattern describes.
-/
namespace Workflow

/-- Who uses the store. An actor that bypasses the policies may do everything. -/
structure Actor where
  role : String
  bypass : Bool
  deriving DecidableEq, Repr, Inhabited

namespace Actor

def system : Actor := ⟨"system", true⟩

def ofRole (role : String) : Actor := ⟨role, false⟩

def record : Record Actor :=
  Actor.mk <$> .required "role" .text <*> .withDefault "bypass" .truth false

def toJson (a : Actor) : Json := .mkObj [("role", .str a.role), ("bypass", .bool a.bypass)]

end Actor

inductive Access where
  | read
  | write
  | delete
  | any
  deriving DecidableEq, Repr, Inhabited

namespace Access

def known : List (String × Access) :=
  [("read", read), ("write", write), ("delete", delete), ("*", any)]

def name : Access → String
  | read => "read"
  | write => "write"
  | delete => "delete"
  | any => "*"

def covers (a requested : Access) : Bool := a == any || a == requested

end Access

inductive Effect where
  | allow
  | deny
  deriving DecidableEq, Repr, Inhabited

namespace Effect

def known : List (String × Effect) := [("allow", allow), ("deny", deny)]

def name : Effect → String
  | allow => "allow"
  | deny => "deny"

end Effect

structure Policy where
  role : String
  pattern : String
  actions : List Access
  effect : Effect
  deriving DecidableEq, Repr, Inhabited

namespace Policy

def anyRole : String := "*"

def appliesTo (p : Policy) (role : String) : Bool := p.role == anyRole || p.role == role

/-- Whether a policy is about a kind of access. -/
def covers (p : Policy) (access : Access) : Bool := p.actions.any (fun a => a.covers access)

def recordIn (f : RecordFormat) : Record Policy :=
  Policy.mk <$> .required "role" .text <*> .required "resource_pattern" .text
    <*> .required "actions" (.list (.choiceIn f Access.known))
    <*> .required "effect" (.choiceIn f Effect.known)

def decodeIn (f : RecordFormat) : Decoder Policy := (recordIn f).decodeIn f "struct Policy"

def decode : Decoder Policy := decodeIn .json

def toJson (p : Policy) : Json :=
  .mkObj [("role", .str p.role), ("resource_pattern", .str p.pattern),
    ("actions", .arr (p.actions.map (fun a => .str a.name))), ("effect", .str p.effect.name)]

end Policy
end Workflow
