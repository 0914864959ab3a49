import Workflow.Access.Policy
import Workflow.Trail.Basic
import Workflow.Storage.Objects

/-!
# Settings

What the engine can be told: where it stores, who may do what, how long its trail is, how it runs
pipelines, and what it logs. Whatever is not said has a default.
-/
namespace Workflow

structure StorageConfig where
  basePath : String
  binaryPath : String
  inlineThreshold : Nat
  chunkSize : Nat
  deriving DecidableEq, Repr, Inhabited

structure PermissionsConfig where
  enabled : Bool
  policies : List Policy
  deriving DecidableEq, Repr, Inhabited

structure AuditConfig where
  logPath : Option String
  maxEntries : Nat
  deriving DecidableEq, Repr, Inhabited

structure ExecutorConfig where
  maxJumps : Nat
  actor : String
  rejectCycles : Bool
  deriving DecidableEq, Repr, Inhabited

structure LoggingConfig where
  level : String
  json : Bool
  deriving DecidableEq, Repr, Inhabited

structure EngineConfig where
  storage : StorageConfig
  permissions : PermissionsConfig
  audit : AuditConfig
  executor : ExecutorConfig
  logging : LoggingConfig
  deriving DecidableEq, Repr, Inhabited

namespace StorageConfig

def default : StorageConfig := ⟨"./data/context", "./data/binary", 65536, ObjectStore.defaultChunk⟩

def record : Record StorageConfig :=
  StorageConfig.mk <$> .withDefault "base_path" .path default.basePath
    <*> .withDefault "binary_path" .path default.binaryPath
    <*> .withDefault "inline_threshold_bytes" .count default.inlineThreshold
    <*> .withDefault "chunk_size_bytes" .count default.chunkSize

def toJson (c : StorageConfig) : Json :=
  .mkObj [("base_path", .str c.basePath), ("binary_path", .str c.binaryPath),
    ("inline_threshold_bytes", .nat c.inlineThreshold), ("chunk_size_bytes", .nat c.chunkSize)]

end StorageConfig

namespace PermissionsConfig

def default : PermissionsConfig := ⟨false, []⟩

def recordIn (f : RecordFormat) : Record PermissionsConfig :=
  PermissionsConfig.mk <$> .withDefault "enabled" .truth default.enabled
    <*> .withDefault "policies" (.list (Policy.decodeIn f)) default.policies

def decodeIn (f : RecordFormat) : Decoder PermissionsConfig :=
  (recordIn f).decodeIn f "struct PermissionsConfig"

def decode : Decoder PermissionsConfig := decodeIn .json

def toJson (c : PermissionsConfig) : Json :=
  .mkObj [("enabled", .bool c.enabled), ("policies", .arr (c.policies.map Policy.toJson))]

end PermissionsConfig

namespace AuditConfig

def default : AuditConfig := ⟨none, Trail.defaultCapacity⟩

def record : Record AuditConfig :=
  AuditConfig.mk <$> .optional "log_path" .path
    <*> .withDefault "max_entries" .count default.maxEntries

def toJson (c : AuditConfig) : Json :=
  .mkObj [("log_path", .ofOption .str c.logPath), ("max_entries", .nat c.maxEntries)]

end AuditConfig

namespace ExecutorConfig

def default : ExecutorConfig := ⟨1000, "pipeline", false⟩

def record : Record ExecutorConfig :=
  ExecutorConfig.mk <$> .withDefault "max_jumps" .word32 default.maxJumps
    <*> .withDefault "actor" .text default.actor
    <*> .withDefault "reject_cycles" .truth default.rejectCycles

def decodeIn (f : RecordFormat) : Decoder ExecutorConfig :=
  record.decodeIn f "struct ExecutorConfig"

def decode : Decoder ExecutorConfig := decodeIn .json

def toJson (c : ExecutorConfig) : Json :=
  .mkObj [("max_jumps", .nat c.maxJumps), ("actor", .str c.actor),
    ("reject_cycles", .bool c.rejectCycles)]

end ExecutorConfig

namespace LoggingConfig

def default : LoggingConfig := ⟨"info", false⟩

def record : Record LoggingConfig :=
  LoggingConfig.mk <$> .withDefault "level" .text default.level
    <*> .withDefault "json" .truth default.json

def toJson (c : LoggingConfig) : Json :=
  .mkObj [("level", .str c.level), ("json", .bool c.json)]

end LoggingConfig

namespace EngineConfig

def default : EngineConfig :=
  ⟨StorageConfig.default, PermissionsConfig.default, AuditConfig.default, ExecutorConfig.default,
    LoggingConfig.default⟩

def recordIn (f : RecordFormat) : Record EngineConfig :=
  EngineConfig.mk
    <$> .withDefault "storage" (StorageConfig.record.decodeIn f "struct StorageConfig")
      default.storage
    <*> .withDefault "permissions" (PermissionsConfig.decodeIn f) default.permissions
    <*> .withDefault "audit" (AuditConfig.record.decodeIn f "struct AuditConfig") default.audit
    <*> .withDefault "executor" (ExecutorConfig.decodeIn f) default.executor
    <*> .withDefault "logging" (LoggingConfig.record.decodeIn f "struct LoggingConfig")
      default.logging

def decodeIn (f : RecordFormat) : Decoder EngineConfig :=
  (recordIn f).decodeIn f "struct EngineConfig"

def decode : Decoder EngineConfig := decodeIn .json

def toJson (c : EngineConfig) : Json :=
  .mkObj [("storage", c.storage.toJson), ("permissions", c.permissions.toJson),
    ("audit", c.audit.toJson), ("executor", c.executor.toJson), ("logging", c.logging.toJson)]

end EngineConfig
end Workflow
