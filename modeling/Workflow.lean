import Workflow.Main
import Workflow.Pipeline.Printer
import Workflow.Store.Payload
import Workflow.Proofs.Run.Termination
import Workflow.Proofs.Run.Loops
import Workflow.Proofs.Run.LoopControl
import Workflow.Proofs.Run.Jumps
import Workflow.Proofs.Run.Standing
import Workflow.Proofs.Run.FinalTree
import Workflow.Proofs.Run.Context
import Workflow.Proofs.Run.Scope
import Workflow.Proofs.Store.Confined
import Workflow.Proofs.Storage.Backend
import Workflow.Proofs.Store.Call
import Workflow.Proofs.Store.Guarded
import Workflow.Proofs.Store.Permission
import Workflow.Proofs.Store.Outcome
import Workflow.Proofs.Store.Entries
import Workflow.Proofs.Store.Objects
import Workflow.Proofs.Store.Failure
import Workflow.Proofs.Store.Runs
import Workflow.Proofs.Store.Ordered
import Workflow.Proofs.Store.Snapshot
import Workflow.Proofs.Binary.Descriptor
import Workflow.Proofs.Json.Record
import Workflow.Proofs.Storage.Objects
import Workflow.Proofs.Store.Merge
import Workflow.Proofs.Store.References
import Workflow.Proofs.Store.Orphans
import Workflow.Proofs.Store.Payloads
import Workflow.Proofs.Storage.Contents
import Workflow.Proofs.Storage.Honest
import Workflow.Proofs.Store.Durable
import Workflow.Proofs.Store.RoundTrip
import Workflow.Proofs.Files.Tree
import Workflow.Proofs.Storage.Name
import Workflow.Proofs.Json.Text
import Workflow.Proofs.Storage.Refinement
import Workflow.Proofs.Store.Saved
import Workflow.Proofs.Store.Recorded
import Workflow.Proofs.Store.Metrics
import Workflow.Proofs.Store.Confidential
import Workflow.Proofs.Storage.Apart
import Workflow.Proofs.Store.Isolated
import Workflow.Proofs.Run.Transitions
import Workflow.Proofs.Run.Targets
import Workflow.Proofs.Run.Refusal
import Workflow.Proofs.Pipeline.RoundTrip
import Workflow.Proofs.Expression.RoundTrip
import Workflow.Proofs.Pipeline.Cycles
import Workflow.Proofs.Store.Unsaved
import Workflow.Proofs.Expression.Template
import Workflow.Proofs.Expression.Nesting
import Workflow.Proofs.Store.Pointwise
import Workflow.Proofs.Access.FullMatch
import Workflow.Proofs.Run.Marking
import Workflow.Proofs.Run.Requests
import Workflow.Proofs.Run.Sources
import Workflow.Proofs.Run.Paths
import Workflow.Proofs.Expression.Integers
import Workflow.Proofs.Run.Defaults
import Workflow.Proofs.Storage.Inside
import Workflow.Proofs.Pipeline.Places
import Workflow.Proofs.Store.Readable
import Workflow.Proofs.Storage.Sync
import Workflow.Proofs.Trail.Window
import Workflow.Proofs.Access.Decisions
import Workflow.Proofs.Run.Plugins
import Workflow.Proofs.Expression.Levels
