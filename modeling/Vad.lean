import Vad.Feedback.Retro
import Vad.Evidence.Provenance
import Vad.Lib.IndentedJson
import Vad.Guards.Gates
import Vad.Guards.Session
import Vad.Lib.Tally
import Vad.Lib.OneFile
import Vad.ControlPlane.LockRecovery
import Vad.Effort.Scoring
import Vad.Ui.Render
import Vad.Lib.Html
import Vad.Server.ApprovalRuns
import Vad.Server.References
import Vad.Server.Migrations
import Vad.Swarm.Leases
import Vad.ControlPlane.Lifecycle
import Vad.Lib.Attempts
import Vad.Swarm.GraphValidation
import Vad.Repo.JournalDigest
import Vad.Server.LogRedaction
import Vad.ControlPlane.PluginStatus
import Vad.ControlPlane.PluginAudit
import Vad.Lib.Search
import Vad.Router.Privacy
import Vad.Router.Routing
import Vad.Lib.Lower
import Vad.Feedback.Analyzer
import Vad.Feedback.Proposals
import Vad.Ask.Plan
import Vad.Lib.Program
import Vad.Lib.Table
import Vad.Lib.Serial
import Vad.ControlPlane.Model
import Vad.ControlPlane.Events
import Vad.ControlPlane.WorkItems
import Vad.ControlPlane.Leases
import Vad.Lib.Text
import Vad.ControlPlane.Clients
import Vad.ControlPlane.Approvals
import Vad.Repo.DiffProposal
import Vad.Server.Store
import Vad.Server.WorkItems
import Vad.Server.Clients
import Vad.Server.Leases
import Vad.Server.Records
import Vad.Server.Effects
import Vad.Server.Requests
import Vad.Server.Invariant
import Vad.Server.WorkItemRuns
import Vad.Server.WorkItemApi
import Vad.Server.WorkItemAtomicity
import Vad.Server.ReadBack
import Vad.Server.LeaseRace
import Vad.Server.TransitionRace
import Vad.Server.StaleRecovery
import Vad.Lib.Uri
import Vad.Server.Routes
import Vad.Lib.Ticket
import Vad.Server.LedgerNumbering
import Vad.Server.StuckItems
import Vad.ControlPlane.Streams
import Vad.Server.Archive
import Vad.Server.Columns
import Vad.Contracts.Models
import Vad.Proof.Plan
import Vad.Verify.Runner
import Vad.Loop.Orchestrator
import Vad.Ask.Assessment
import Vad.Lib.Dict
import Vad.Lib.Files
import Vad.Repo.PatchApply
import Vad.Repo.Hunks
import Vad.Repo.RepeatedSections
import Vad.Repo.DiffWorkflow
import Vad.Repo.Automation
import Vad.Server.DiffProposals
import Vad.Lib.FileTree
import Vad.ControlPlane.Plugins
import Vad.Lib.CheckedLoop
import Vad.ControlPlane.PluginWriters
import Vad.ControlPlane.McpGateway
import Vad.Adapters.Mcp
import Vad.Adapters.ToolCalls
import Vad.Adapters.JsonRpc
import Vad.Server.Runs
import Vad.Server.LeaseLifecycle
import Vad.Server.LeaseExpiry
import Vad.Server.PrivilegedEvents
import Vad.Server.RepeatedScan
import Vad.Server.TaskStates
import Vad.Server.ReplayedStaleness
import Vad.ControlPlane.ProjectionOrder
import Vad.Lib.Rego
import Vad.Policy.Rules
import Vad.Policy.Engine
import Vad.Lib.Unwinding
import Vad.Memory.Store
import Vad.Loop.TokenUse
import Vad.Loop.History
import Vad.Server.Dashboard
import Vad.Server.TaskBoard
import Vad.Server.LeaseBoard
import Vad.Lib.Latest
import Vad.Server.RunReplay
import Vad.Server.LiveClients
import Vad.ControlPlane.PluginFailures
import Vad.ControlPlane.PluginReversal
import Vad.Contracts.Diff
import Vad.Deploy.Provider
import Vad.Evidence.Identity
import Vad.Guards.Filesystem
import Vad.Lib.DepthFirst
import Vad.Lib.Reading
import Vad.Proof.Digest
import Vad.Repo.UnifiedDiff
import Vad.Server.EvidenceStore
import Vad.Server.HeadOfLine
import Vad.Swarm.Coordinator
import Vad.Swarm.State
import Vad.Server.FilesServed
