import Workflow.Config.Basic
import Workflow.Toml.Document

/-!
# Loading the settings

The settings are a TOML document in a file. Either a flaw of the file is an error, or the defaults
stand in.
-/
namespace Workflow

inductive ConfigError where
  | unreadable (path : String) (cause : FileError)
  | malformed (path : String)
  deriving DecidableEq, Repr, Inhabited

/-- The wording of an error. How a text fails to be settings is not told. -/
def ConfigError.message : ConfigError → String
  | unreadable path cause => s!"failed to read {path}: {cause.message}"
  | malformed path => s!"failed to parse {path}"

namespace EngineConfig

def defaultFile : String := "pipewright.toml"

def ofText? (text : String) : Option EngineConfig :=
  (Toml.read? text).bind fun t => (decodeIn .toml (.obj t)).toOption

/-- Loads the settings from a file, which is named from a directory. -/
def load (files : Tree) (directory : Tree.Path) (file : String) :
    Except ConfigError EngineConfig := do
  let text ← (files.readText (Tree.resolve directory file)).mapError (.unreadable file)
  match ofText? text with
  | some c => return c
  | none => throw (.malformed file)

/-- Loads the settings from a file, or the defaults if that fails. -/
def loadOrDefault (files : Tree) (directory : Tree.Path) (file : String) : EngineConfig :=
  ((load files directory file).toOption).getD EngineConfig.default

end EngineConfig
end Workflow
