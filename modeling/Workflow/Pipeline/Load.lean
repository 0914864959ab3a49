import Workflow.Pipeline.Reader
import Workflow.Pipeline.Graph
import Workflow.Pipeline.DocumentSchema
import Workflow.Yaml.Document

/-!
# Loading a document

A text becomes a value, the value is checked against a schema, the document is read from it, and the
blocks of the document are checked for repeated names and for jumps that lead nowhere. The first of
these stages that fails decides the error.
-/
namespace Workflow

inductive LoadError where
  | badSchema
  | malformed
  | violations (vs : List Violation)
  | unreadable (cause : ReadError)
  | flawed (errors : List GraphError)
  deriving Inhabited

/-- The wording of a flaw in the structure of a document. -/
def structureMessage (cause : String) : String := "invalid pipeline structure: " ++ cause

def stepMessage (step cause : String) : String := s!"invalid step '{step}': {cause}"

def ReadError.message : ReadError → String
  | noPipelines => structureMessage "missing 'pipelines' list"
  | badPipeline cause => structureMessage s!"invalid pipeline: {cause.message}"
  | duplicatePipeline name => structureMessage s!"duplicate pipeline name '{name}'"
  | unknownStepType step type => s!"step '{step}' has unknown type '{type}'"
  | badStep step cause => stepMessage step cause.message
  | noPlugin step => stepMessage step "plugin step needs 'plugin' unless it iterates"
  | cannotIterate step type => stepMessage step s!"'{type}' steps cannot iterate"

/-- The wording of an error. How a text fails to be a value, and a schema to be one, is told by
their kind alone. -/
def LoadError.message : LoadError → String
  | badSchema => "invalid pipeline schema"
  | malformed => "malformed YAML"
  | violations vs => "schema validation failed: " ++ displayViolations vs
  | unreadable cause => cause.message
  | flawed errors => structureMessage ("; ".intercalate (errors.map GraphError.message))

namespace PipelineDocument

/-- The schema that a value writes, for documents to be checked against. -/
def schemaOf (source : Json) : Except LoadError SchemaDocument :=
  match SchemaDocument.ofJson? source with
  | some s => .ok s
  | none => .error .badSchema

/-- Loads a document that must satisfy a schema. -/
def loadWith (rules : SchemaDocument) (text : String) : Except LoadError PipelineDocument := do
  match Yaml.read? text with
  | none => throw .malformed
  | some v =>
    let found := rules.violations v
    if !found.isEmpty then throw (.violations found)
    let d ← (ofJson v).mapError .unreadable
    let errors := (ControlGraph.ofDocument d).errors
    if !errors.isEmpty then throw (.flawed errors)
    return d

def load (text : String) : Except LoadError PipelineDocument := do
  loadWith (← schemaOf schema) text

end PipelineDocument
end Workflow
