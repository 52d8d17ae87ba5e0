import IraOS.Lib.Act
import IraOS.Lib.Dict
import IraOS.Lib.Buckets
import IraOS.Lib.System
import IraOS.Lib.Tasks
import IraOS.Core.Value
import IraOS.Core.Models
import IraOS.Core.Capability
import IraOS.Core.Kernel
import IraOS.Security.Policy
import IraOS.Security.Decisions
import IraOS.Security.LoadOrder
import IraOS.Security.Manager
import IraOS.Mutation.Confirmation
import IraOS.Mutation.Fallback
import IraOS.Mutation.Audit
import IraOS.Mutation.Manager
import IraOS.Execution.Service
import IraOS.Android.Adapter
import IraOS.Android.Bridge
import IraOS.Android.Capabilities
import IraOS.Lib.Trace
import IraOS.Core.Frame
import IraOS.Mutation.Lifecycle
import IraOS.Execution.Dispatch
import IraOS.Execution.Pipeline
import IraOS.Execution.Authorization
import IraOS.Android.Routing
import IraOS.Android.Restoring
import IraOS.Android.Settings
import IraOS.Android.Levels
import IraOS.Android.Faithfulness
import IraOS.Android.Rollback
import IraOS.Execution.Instance
import IraOS.Lib.FirstMatch
import IraOS.Lib.Follows
import IraOS.Execution.Announced
import IraOS.Execution.Results
import IraOS.Execution.Normalized
import IraOS.Mutation.Ending
import IraOS.Execution.AuditTrail
import IraOS.Workflow.Components
import IraOS.Workflow.Manager
import IraOS.Workflow.TaskEvents
import IraOS.Workflow.Wiring
import IraOS.Workflow.Cancellation
import IraOS.Memory.Models
import IraOS.Memory.Store
import IraOS.Memory.Coherence
import IraOS.Identity.Models
import IraOS.Identity.Registry
import IraOS.Identity.Authentication
import IraOS.Identity.ContextStack
import IraOS.Identity.Registered
import IraOS.Identity.Revocation
import IraOS.Identity.Logout
import IraOS.Lib.Cycle
import IraOS.Lib.Greedy
import IraOS.Lifecycle.Models
import IraOS.Lifecycle.Order
import IraOS.Lifecycle.BootOrder
import IraOS.Lifecycle.Orchestrator
import IraOS.Lifecycle.Startup
import IraOS.Lifecycle.Guarantees
import IraOS.Lifecycle.Release
import IraOS.Lib.Image
import IraOS.Lib.Kahn
import IraOS.Lib.Search
import IraOS.Planner.Graph
import IraOS.Planner.Plan
import IraOS.Android.Network
import IraOS.Android.Pairing
import IraOS.Android.Radios
import IraOS.Android.Recorded
import IraOS.Android.Registry
import IraOS.Lib.Undo
import IraOS.Android.Files
import IraOS.Android.ReadOnly
import IraOS.Android.Correspondence
import IraOS.Android.FileUndo
import IraOS.Android.Records
import IraOS.Android.RecordUndo
import IraOS.Android.Undoing
import IraOS.Lib.Settle
import IraOS.Lib.Separator
import IraOS.Lib.Queued
import IraOS.Lib.Ranking
import IraOS.Container.Models
import IraOS.Container.Validation
import IraOS.Container.Resolver
import IraOS.Container.Stretches
import IraOS.Container.Moves
import IraOS.Container.Orderly
import IraOS.Container.Alone
import IraOS.Container.Agreement
import IraOS.Container.Singletons
import IraOS.Container.Stack
import IraOS.Container.Deadlock
import IraOS.Container.Registration
import IraOS.Plugins.Manager
import IraOS.Plugins.States
import IraOS.Lib.Tables
import IraOS.Config.Loader
import IraOS.Lib.Objects
import IraOS.Config.Objects
import IraOS.Config.Precedence
import IraOS.Config.Manager
import IraOS.Config.Validator
import IraOS.Config.Schema
import IraOS.Config.Soundness
import IraOS.Config.Sections
import IraOS.Config.Idempotence
import IraOS.Lib.Leaves
import IraOS.Config.EnvVars
import IraOS.Config.Escapes
import IraOS.Config.Loading
import IraOS.Config.Secrets
import IraOS.Lib.Ancestry
import IraOS.Logging.Factory
import IraOS.Logging.Delivery
import IraOS.Memory.Manager
import IraOS.Memory.Waiting
import IraOS.Memory.Linear
import IraOS.Memory.Retention
import IraOS.Memory.Search
import IraOS.Memory.SearchSpec
import IraOS.Memory.SearchOrder
import IraOS.Memory.Sweep
import IraOS.Container.Disposal
import IraOS.Container.Disposed
import IraOS.Container.Shutdown
import IraOS.Container.ScopeDisposal
import IraOS.Identity.Maps
import IraOS.Lib.Machine
import IraOS.Workflow.Queue
import IraOS.Logging.Levels
import IraOS.Plugins.Discovery
import IraOS.Events.Bus
import IraOS.Events.Delivery
import IraOS.Lib.Tracks
import IraOS.Lifecycle.Shutdown
import IraOS.Lifecycle.Stopping
import IraOS.Lifecycle.Protocol
import IraOS.Lifecycle.Runs
import IraOS.Identity.Authorization
import IraOS.Identity.Grants
import IraOS.Planner.Manager
import IraOS.Planner.History
import IraOS.Lib.Stages
import IraOS.Brain.Models
import IraOS.Brain.Pipeline
import IraOS.Brain.Readiness
import IraOS.Brain.Requests
import IraOS.Lib.Calls
import IraOS.Runtime.Manager
import IraOS.Runtime.Executions
import IraOS.Lib.Utf16
import IraOS.Lib.Json
import IraOS.Logging.Sinks
import IraOS.Logging.Lines
import IraOS.Logging.Scopes
