import HuntWarden.Agent.ApprovalService
import HuntWarden.Agent.ApprovalWaits
import HuntWarden.Agent.ContextEviction
import HuntWarden.Agent.Sanitizer
import HuntWarden.Agent.ToolResults
import HuntWarden.Assessments.Confirmation
import HuntWarden.Assessments.Effective
import HuntWarden.Assessments.Projection
import HuntWarden.Assessments.Validation
import HuntWarden.Common.Errors
import HuntWarden.Common.Ids
import HuntWarden.Common.StableJson
import HuntWarden.Config.LoadConfig
import HuntWarden.Config.NormalForm
import HuntWarden.Config.ProfileService
import HuntWarden.Config.Schema
import HuntWarden.Credentials.CredentialStore
import HuntWarden.Datasets.KnownHash
import HuntWarden.Datasets.Registry
import HuntWarden.Discovery.Accounting
import HuntWarden.Discovery.Attribution
import HuntWarden.Discovery.Checkpoints
import HuntWarden.Discovery.DerivedEdges
import HuntWarden.Discovery.Drainage
import HuntWarden.Discovery.VolatileDiscovery
import HuntWarden.Domain.Types
import HuntWarden.Evaluation.Evaluator
import HuntWarden.Evaluation.Manifest
import HuntWarden.Evaluation.ReleaseGate
import HuntWarden.Evidence.EvidenceExport
import HuntWarden.Evidence.EvidenceStore
import HuntWarden.Evidence.Idempotence
import HuntWarden.Executor.HostKeys
import HuntWarden.Executor.Ssh
import HuntWarden.Facts.Identity
import HuntWarden.Facts.Noninterference
import HuntWarden.Facts.Normalizer
import HuntWarden.Facts.Order
import HuntWarden.Facts.Pagination
import HuntWarden.Facts.Query
import HuntWarden.Helper.Chains
import HuntWarden.Helper.Content
import HuntWarden.Helper.DecodeOffsets
import HuntWarden.Helper.Drift
import HuntWarden.Helper.Enumerate
import HuntWarden.Helper.Exactness
import HuntWarden.Helper.Fields
import HuntWarden.Helper.Files
import HuntWarden.Helper.Inventory
import HuntWarden.Helper.LogMerge
import HuntWarden.Helper.LogPages
import HuntWarden.Helper.LogRelation
import HuntWarden.Helper.LogSources
import HuntWarden.Helper.Match
import HuntWarden.Helper.MatchContext
import HuntWarden.Helper.Observation
import HuntWarden.Helper.Output
import HuntWarden.Helper.Predicate
import HuntWarden.Helper.PredicateNodes
import HuntWarden.Helper.ProcessEvidence
import HuntWarden.Helper.ProcessTable
import HuntWarden.Helper.Pushdown
import HuntWarden.Helper.ReceiptRuns
import HuntWarden.Helper.Receipts
import HuntWarden.Helper.Sockets
import HuntWarden.Helper.SortOrder
import HuntWarden.Helper.Visits
import HuntWarden.Investigation.ActionExecutor
import HuntWarden.Investigation.Attempts
import HuntWarden.Investigation.CompletionValidator
import HuntWarden.Investigation.Dependencies
import HuntWarden.Investigation.Freeze
import HuntWarden.Investigation.GrantChanges
import HuntWarden.Investigation.JavaClassIdentity
import HuntWarden.Investigation.Stranding
import HuntWarden.Investigation.Types
import HuntWarden.Investigation.Verdicts
import HuntWarden.Lib.Backfill
import HuntWarden.Lib.Base64
import HuntWarden.Lib.Bisect
import HuntWarden.Lib.Chain
import HuntWarden.Lib.Claims
import HuntWarden.Lib.Dedup
import HuntWarden.Lib.Digraph
import HuntWarden.Lib.Inet
import HuntWarden.Lib.InetText
import HuntWarden.Lib.Js
import HuntWarden.Lib.Json
import HuntWarden.Lib.JsonDump
import HuntWarden.Lib.JsonSyntax
import HuntWarden.Lib.JsonText
import HuntWarden.Lib.Kernel
import HuntWarden.Lib.Ledger
import HuntWarden.Lib.Merge
import HuntWarden.Lib.OneShot
import HuntWarden.Lib.OrderedMap
import HuntWarden.Lib.Outcome
import HuntWarden.Lib.Paging
import HuntWarden.Lib.Pieces
import HuntWarden.Lib.PosixPath
import HuntWarden.Lib.Program
import HuntWarden.Lib.PropertyOrder
import HuntWarden.Lib.Py
import HuntWarden.Lib.PyText
import HuntWarden.Lib.Record
import HuntWarden.Lib.References
import HuntWarden.Lib.Runs
import HuntWarden.Lib.Scan
import HuntWarden.Lib.Schema
import HuntWarden.Lib.Statements
import HuntWarden.Lib.Table
import HuntWarden.Lib.TopologicalOrder
import HuntWarden.Lib.Utf16
import HuntWarden.Lib.Utf8
import HuntWarden.Lib.Utf8Exact
import HuntWarden.Lib.Walk
import HuntWarden.Playbooks.Coverage
import HuntWarden.Playbooks.Planned
import HuntWarden.Playbooks.Planner
import HuntWarden.Playbooks.Progress
import HuntWarden.Playbooks.Registry
import HuntWarden.Presets.Completeness
import HuntWarden.Presets.Executor
import HuntWarden.Presets.Registry
import HuntWarden.Probe.Json
import HuntWarden.Protocol.Capability
import HuntWarden.Protocol.Manifest
import HuntWarden.Protocol.Predicate
import HuntWarden.Protocol.PredicateWalk
import HuntWarden.Protocol.Types
import HuntWarden.Protocol.Wire
import HuntWarden.Report.Fallback
import HuntWarden.Report.ReportService
import HuntWarden.Rules.Delivery
import HuntWarden.Rules.DeterministicRules
import HuntWarden.Rules.Evaluation
import HuntWarden.Runtime.GrantDecisions
import HuntWarden.Runtime.Grants
import HuntWarden.Runtime.Revocation
import HuntWarden.Runtime.ScopeBinding
import HuntWarden.Storage.Approvals
import HuntWarden.Storage.BatchCommits
import HuntWarden.Storage.BatchRuns
import HuntWarden.Storage.Budget
import HuntWarden.Storage.FactBatches
import HuntWarden.Storage.FactRuns
import HuntWarden.Storage.Facts
import HuntWarden.Storage.Grants
import HuntWarden.Storage.Investigation
import HuntWarden.Storage.Migrate
import HuntWarden.Storage.MigrationKeeps
import HuntWarden.Storage.Timeline
import HuntWarden.Storage.Usage
import HuntWarden.Storage.WriterLock
import HuntWarden.ThreatIntel.Client
import HuntWarden.ThreatIntel.NetworkIoc
import HuntWarden.ThreatIntel.Verdict
import HuntWarden.Tools.EvidenceBytes
import HuntWarden.Tools.ProposeActions
import HuntWarden.Tools.ReadGate
import HuntWarden.Tools.RemoteTool
import HuntWarden.Tools.WriteBinding
import HuntWarden.Tools.WriteOutcomes
import HuntWarden.Tools.WriteTool
