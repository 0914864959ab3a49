import Workflow.Pipeline.Load
import Workflow.Run.Error
import Workflow.Config.Load

/-!
# What a command reports

A command writes an output, and either a notice that it is done or why it failed, with the causes of
that.
-/
namespace Workflow.Command

structure Failure where
  message : String
  causes : List String
  deriving DecidableEq, Repr, Inhabited

namespace Failure

/-- A cause on its own lines, the first after a lead and the others under it. -/
def causeLines (lead cause : String) : String :=
  let blank := String.ofList (List.replicate lead.length ' ')
  lead ++ ("\n" ++ blank).intercalate (cause.splitOn "\n") ++ "\n"

def numberLead (n : Nat) : String :=
  let digits := toString n
  String.ofList (List.replicate (5 - digits.length) ' ') ++ digits ++ ": "

def causesText : List String → String
  | [] => ""
  | [cause] => "\nCaused by:\n" ++ causeLines "    " cause
  | causes =>
    "\nCaused by:\n"
      ++ String.join (causes.zipIdx.map fun c => causeLines (numberLead c.2) c.1)

def text (f : Failure) : String := "Error: " ++ f.message ++ "\n" ++ causesText f.causes

def ofFile (message : String) (cause : FileError) : Failure := ⟨message, [cause.message]⟩

def ofLoad (cause : LoadError) : Failure := ⟨cause.message, []⟩

def ofConfig (cause : ConfigError) : Failure :=
  ⟨cause.message,
    match cause with
    | .unreadable _ file => [file.message]
    | .malformed _ => []⟩

def storeCauses : StoreError → List String
  | .object (.file cause) => [cause.message]
  | _ => []

def runCauses : RunError → List String
  | .plugin _ _ cause => [cause.message]
  | .expression _ cause => [cause.message]
  | .badSnapshot _ id => [RunError.snapshotMessage id]
  | .store _ cause => cause.message :: storeCauses cause
  | _ => []

def ofRun (message : String) (cause : RunError) : Failure :=
  ⟨message, cause.message :: runCauses cause⟩

end Failure

structure Report where
  output : String
  notice : String
  failure : Option Failure
  deriving DecidableEq, Repr, Inhabited

namespace Report

/-- The report of a command that has failed, perhaps after some output. -/
def failed (output : String) (f : Failure) : Report := ⟨output, "", some f⟩

def done (output notice : String) : Report := ⟨output, notice, none⟩

/-- The report of a command that may fail before it writes anything. -/
def ofExcept : Except Failure Report → Report
  | .ok r => r
  | .error f => failed "" f

def code (r : Report) : Nat := if r.failure.isSome then 1 else 0

def diagnostics (r : Report) : String := r.notice ++ r.failure.elim "" Failure.text

end Report
end Workflow.Command
