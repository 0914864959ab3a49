import Workflow.Pipeline.Basic

/-!
# Plugins

What a step calls is a plugin, known by a type and a name. A reference gives both, with a dot
between them, or the name alone; then the first type that has a plugin of this name decides.
-/
namespace Workflow

inductive PluginError where
  | failed (message : String)
  | invalidInput (message : String)
  deriving DecidableEq, Repr, Inhabited

def PluginError.message : PluginError → String
  | failed message => message
  | invalidInput message => "invalid plugin input: " ++ message

/-- A plugin. It sees the configuration of its step and the live context, and may change a state of
its own. -/
structure Plugin (π : Type) where
  run : Table Json → Table Json → π → Except PluginError (Table Json) × π

/-- Plugins, or what stands for them, by type and name. -/
abbrev Registry (α : Type) := Table (Table α)

namespace Registry
variable {α : Type}

/-- Registers a plugin in the place of one of the same type and name. -/
def register (r : Registry α) (type name : String) (plugin : α) : Registry α :=
  r.insert type (((r.get? type).getD .empty).insert name plugin)

/-- Every plugin with its type and name, in the order of the types and then of the names. -/
def plugins (r : Registry α) : List (String × String × α) :=
  r.entries.flatMap (fun t => t.2.entries.map (fun p => (t.1, p.1, p.2)))

def reference (type name : String) : String := type ++ "." ++ name

def references (r : Registry α) : List String :=
  r.plugins.map (fun p => reference p.1 p.2.1)

def find? (r : Registry α) (type name : String) : Option α :=
  (r.get? type).bind (fun t => t.get? name)

def findByName? (r : Registry α) (name : String) : Option α :=
  (r.plugins.find? (fun p => p.2.1 == name)).map (·.2.2)

def resolve? (r : Registry α) (reference : Option String × String) : Option α :=
  match reference with
  | (some type, name) => r.find? type name
  | (none, name) => r.findByName? name

end Registry
end Workflow
