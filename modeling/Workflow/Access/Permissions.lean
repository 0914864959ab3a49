import Workflow.Access.Policy
import Workflow.Regex.Reader

/-!
# Permissions

A set of policies decides who may do what. A policy that forbids always wins; what no policy allows
is forbidden. The order in which policies were added plays no part. Without policing, everything is
allowed.
-/
namespace Workflow

/-- What goes wrong with permissions. -/
inductive PermissionError where
  | denied (role resource : String) (access : Access)
  | badPattern (pattern : String)
  deriving DecidableEq, Repr, Inhabited

/-- The wording of an error. What is wrong with a pattern is not told. -/
def PermissionError.message : PermissionError → String
  | denied role resource access =>
    s!"permission denied: role '{role}' may not {access.name} '{resource}'"
  | badPattern pattern => s!"invalid resource pattern '{pattern}'"

structure CompiledPolicy where
  policy : Policy
  regex : Regex

namespace CompiledPolicy

/-- The pattern of a policy inside anchors, so that it must match a whole resource. -/
def anchored (pattern : String) : String := "^(?:" ++ pattern ++ ")$"

def ofPolicy (d : Regex.Dialect) (p : Policy) : Except PermissionError CompiledPolicy :=
  match Regex.compile? d (anchored p.pattern) with
  | some regex => .ok ⟨p, regex⟩
  | none => .error (.badPattern p.pattern)

/-- Whether a policy is about an access of a role to a resource. -/
def concerns (c : CompiledPolicy) (role resource : String) (access : Access) : Bool :=
  c.policy.appliesTo role && c.policy.covers access && c.regex.isMatch resource

end CompiledPolicy

/-- The policies in force. -/
structure Permissions where
  enabled : Bool
  compiled : List CompiledPolicy

namespace Permissions

def disabled : Permissions := ⟨false, []⟩

def policies (p : Permissions) : List Policy := p.compiled.map CompiledPolicy.policy

/-- Adds a policy. One whose pattern cannot be read is refused. -/
def add (d : Regex.Dialect) (p : Permissions) (policy : Policy) :
    Except PermissionError Permissions :=
  (CompiledPolicy.ofPolicy d policy).map (fun c => { p with compiled := p.compiled ++ [c] })

def addAll (d : Regex.Dialect) (p : Permissions) (policies : List Policy) :
    Except PermissionError Permissions :=
  policies.foldlM (add d) p

/-- Whether a policy with an effect is about an access. -/
def concerned (p : Permissions) (effect : Effect) (role resource : String) (access : Access) :
    Bool :=
  p.compiled.any (fun c => c.policy.effect == effect && c.concerns role resource access)

/-- Whether a role may have access to a resource. -/
def allows (p : Permissions) (role resource : String) (access : Access) : Bool :=
  !p.enabled
    || (!p.concerned .deny role resource access && p.concerned .allow role resource access)

def require (p : Permissions) (role resource : String) (access : Access) :
    Except PermissionError Unit :=
  if p.allows role resource access then .ok () else .error (.denied role resource access)

end Permissions
end Workflow
