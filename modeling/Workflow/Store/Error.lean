import Workflow.Access.Permissions
import Workflow.Schema.Registry
import Workflow.Storage.Objects
import Workflow.Binary.Base64

/-!
# What goes wrong in the store
-/
namespace Workflow

/-- Why a stored value does not describe a payload. -/
inductive DescriptorFlaw where
  | unmarked (path : StorePath)
  | unreadable (cause : DecodeError)
  | inconsistent (path : StorePath)
  | badPayload (cause : Base64.Flaw)
  deriving Inhabited

def DescriptorFlaw.message : DescriptorFlaw → String
  | unmarked path => s!"{path.resource} does not hold a binary descriptor"
  | unreadable cause => cause.message
  | inconsistent path => s!"{path.resource} has inconsistent data location"
  | badPayload cause => s!"bad base64 payload: {cause.message}"

inductive Facility where
  | persistence
  | objects
  deriving DecidableEq, Repr, Inhabited

def Facility.name : Facility → String
  | persistence => "persistence"
  | objects => "binary storage"

inductive StoreError where
  | permission (cause : PermissionError)
  | validation (cause : ValidationError)
  | object (cause : ObjectError)
  | notFound (path : StorePath)
  | badDescriptor (flaw : DescriptorFlaw)
  | notAList (path : StorePath)
  | unavailable (facility : Facility)
  deriving Inhabited

namespace StoreError

def message : StoreError → String
  | permission cause => cause.message
  | validation cause => cause.message
  | object cause => cause.message
  | notFound path => s!"context key not found: {path.resource}"
  | badDescriptor flaw => s!"invalid binary descriptor: {flaw.message}"
  | notAList path => s!"context value at {path.resource} is not a list"
  | unavailable facility => s!"{facility.name} backend is not configured"

/-- Whether an error is a refusal of permission, which leaves an entry of its own in the trail. -/
def isRefusal : StoreError → Bool
  | permission _ => true
  | _ => false

end StoreError
end Workflow
