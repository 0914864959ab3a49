import Workflow.Schema.Reader
import Workflow.Binary.Format

/-!
# Registered schemas

Schemas are registered under names; values are checked against the schema of a name.
-/
namespace Workflow

inductive ValidationError where
  | unknownSchema (id : String)
  | badSchema (id : String)
  | invalid (id : String) (violations : List Violation)
  deriving Inhabited

/-- The wording of an error. What is wrong with a schema is not told. -/
def ValidationError.message : ValidationError → String
  | unknownSchema id => s!"unknown schema: '{id}'"
  | badSchema id => s!"invalid schema '{id}'"
  | invalid id violations =>
    s!"validation against '{id}' failed: " ++ displayViolations violations

abbrev SchemaRegistry := Table SchemaDocument

namespace SchemaRegistry

/-- Registers a schema in the place of one with the same name. -/
def register (r : SchemaRegistry) (id : String) (schema : Json) :
    Except ValidationError SchemaRegistry :=
  match SchemaDocument.ofJson? schema with
  | some s => .ok (r.insert id s)
  | none => .error (.badSchema id)

/-- Registers the schema for descriptors of a format, unless its name is taken. -/
def registerBinary (r : SchemaRegistry) (format : String) :
    Except ValidationError SchemaRegistry :=
  let id := Descriptor.schemaId format
  if r.contains id then .ok r else r.register id (Descriptor.schema format)

/-- Checks a value against a registered schema. -/
def validate (r : SchemaRegistry) (id : String) (v : Json) : Except ValidationError Unit :=
  match r.get? id with
  | none => .error (.unknownSchema id)
  | some s =>
    let found := s.violations v
    if found.isEmpty then .ok () else .error (.invalid id found)

end SchemaRegistry
end Workflow
