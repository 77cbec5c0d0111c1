import BaselineOps.Lib.PrefixCode
import BaselineOps.Lib.Bytes
import BaselineOps.Lib.HashChain
import BaselineOps.Lib.Sha256
import BaselineOps.Lib.TopologicalOrder
import BaselineOps.Lib.Kahn
import BaselineOps.Lib.ReplayCache
import BaselineOps.Domain.Json
import BaselineOps.Domain.Canonical
import BaselineOps.Domain.Ids
import BaselineOps.Domain.Traverse
import BaselineOps.Domain.KeyOrder
import BaselineOps.Domain.Size
import BaselineOps.Domain.Reference
import BaselineOps.Domain.Load
import BaselineOps.Domain.Result
import BaselineOps.Domain.Validate
import BaselineOps.Domain.Graph
import BaselineOps.Domain.Plan
import BaselineOps.Domain.PlanDocument
import BaselineOps.Domain.ValidatePlan
import BaselineOps.Journal.Record
import BaselineOps.Journal.Lifecycle
import BaselineOps.Journal.Log
import BaselineOps.Journal.Writer
import BaselineOps.Journal.Reader
import BaselineOps.Journal.Recovery
import BaselineOps.Journal.Session
import BaselineOps.Journal.Faults
import BaselineOps.Journal.Integrity
import BaselineOps.CommittedResult.Document
import BaselineOps.CommittedResult.Verify
import BaselineOps.CommittedResult.Soundness
import BaselineOps.Capabilities.WindowsUpdatePolicy
import BaselineOps.Execution.Action
import BaselineOps.Execution.Trace
import BaselineOps.Scheduler.Order
import BaselineOps.Scheduler.Execute
import BaselineOps.Scheduler.WireOrder
import BaselineOps.Planner.Build
import BaselineOps.Planner.Derive
import BaselineOps.Planner.Order
import BaselineOps.Planner.Review
import BaselineOps.Ipc.Message
import BaselineOps.Ipc.Control
import BaselineOps.Ipc.Session
import BaselineOps.Lib.Hoare
import BaselineOps.Lib.Reader
import BaselineOps.Domain.Parse
import BaselineOps.Evidence.Store
import BaselineOps.Evidence.Consistency
import BaselineOps.Evidence.Reopen
import BaselineOps.Ipc.Pump
import BaselineOps.Ipc.Exchange
import BaselineOps.Ipc.Agreement
import BaselineOps.Ipc.Frame
import BaselineOps.Ipc.Pipe
import BaselineOps.Ipc.Replay
import BaselineOps.Lib.Sweep
import BaselineOps.RunProfile.Scheduler
import BaselineOps.RunProfile.Completeness
import BaselineOps.RunProfile.Order
import BaselineOps.Lib.OsPath
import BaselineOps.SafePath.Resolve
import BaselineOps.SafePath.AtomicWrite
import BaselineOps.Lib.OrderedMap
import BaselineOps.Package.Inventory
import BaselineOps.Package.Verifiers
import BaselineOps.Lib.Argv
import BaselineOps.Lib.Utf16
import BaselineOps.NativeProcess.CommandLine
import BaselineOps.WindowsUpdate.Mutation
import BaselineOps.WindowsUpdate.Planner
import BaselineOps.Trust.Acl
import BaselineOps.Trust.ProtectedPath
import BaselineOps.Lib.FileTree
import BaselineOps.Archive.Extract
import BaselineOps.Archive.Steps
import BaselineOps.Archive.Outcome
import BaselineOps.Archive.Bounds
import BaselineOps.Archive.Links
import BaselineOps.Domain.Bounds
import BaselineOps.WindowsUpdate.Native
import BaselineOps.Capabilities.SecurityOptions
import BaselineOps.Capabilities.PowerShellLogging
import BaselineOps.Lib.WindowsPath
import BaselineOps.Evidence.Locator
import BaselineOps.Evidence.Outcome
import BaselineOps.Evidence.Inventory
import BaselineOps.Evidence.Retry
import BaselineOps.Domain.ValidateResult
import BaselineOps.Reporting.Consistency
import BaselineOps.Lib.DirectoryTree
import BaselineOps.Resources.Directory
import BaselineOps.Planner.Intents
import BaselineOps.Domain.DigestText
import BaselineOps.Trust.Containment
import BaselineOps.Lib.Regex
import BaselineOps.Validation.PathTraversal
import BaselineOps.Lib.Bisect
import BaselineOps.Lib.Decimal
import BaselineOps.Capabilities.SidText
import BaselineOps.Capabilities.LocalAdmins
import BaselineOps.NativeProcess.EnvironmentBlock
import BaselineOps.NativeProcess.Capture
import BaselineOps.RunProfile.Preview
import BaselineOps.ExecutionLease.Host
import BaselineOps.ExecutionLease.Walk
import BaselineOps.ExecutionLease.Registry
import BaselineOps.ExecutionLease.Runs
import BaselineOps.WindowsUpdate.Observer
import BaselineOps.KillSwitch.Host
import BaselineOps.KillSwitch.Snapshot
import BaselineOps.KillSwitch.RollbackText
import BaselineOps.KillSwitch.Activation
import BaselineOps.KillSwitch.Ledger
import BaselineOps.KillSwitch.Outcome
import BaselineOps.KillSwitch.Rollback
import BaselineOps.KillSwitch.Recovery
import BaselineOps.KillSwitch.Report
import BaselineOps.KillSwitch.Consent
import BaselineOps.KillSwitch.Restore
import BaselineOps.KillSwitch.Overlap
import BaselineOps.KillSwitch.Foreign
