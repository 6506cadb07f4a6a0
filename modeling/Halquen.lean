import Halquen.Ai.Agent
import Halquen.Ai.AgentProcess
import Halquen.Ai.Context
import Halquen.Ai.Endpoint
import Halquen.Ai.Preference
import Halquen.Ai.Prompt
import Halquen.Ai.Provider
import Halquen.Ai.ProviderClient
import Halquen.Ai.Router
import Halquen.Ai.Secret
import Halquen.Audit.Lifecycle
import Halquen.Audit.Receipt
import Halquen.Capabilities.Applications
import Halquen.Capabilities.Executable
import Halquen.Capabilities.Executor
import Halquen.Capabilities.TrustedPath
import Halquen.Domain.Agent
import Halquen.Domain.Application
import Halquen.Domain.Capability
import Halquen.Domain.Gateway
import Halquen.Domain.GeneratedIds
import Halquen.Domain.Ids
import Halquen.Domain.Interaction
import Halquen.Domain.Records
import Halquen.Domain.Security
import Halquen.Library.Action
import Halquen.Library.Budget
import Halquen.Library.Constraints
import Halquen.Library.Custody
import Halquen.Library.FileCalls
import Halquen.Library.FileTree
import Halquen.Library.History
import Halquen.Library.Interleaving
import Halquen.Library.Like
import Halquen.Library.LinkedChain
import Halquen.Library.Listing
import Halquen.Library.Mirror
import Halquen.Library.Ranking
import Halquen.Library.Readers
import Halquen.Library.Recency
import Halquen.Library.RelyGuarantee
import Halquen.Library.Renaming
import Halquen.Library.Rules
import Halquen.Library.Run
import Halquen.Library.Sql
import Halquen.Library.Suffixes
import Halquen.Library.TextCodec
import Halquen.Library.Words
import Halquen.Memory.Ledger
import Halquen.Memory.Procedural
import Halquen.Memory.Semantic
import Halquen.Memory.Working
import Halquen.Policy.AddedResources
import Halquen.Policy.Authorization
import Halquen.Policy.Classification
import Halquen.Policy.Engine
import Halquen.Policy.GrantEffects
import Halquen.Policy.Precedence
import Halquen.Policy.Provenance
import Halquen.Policy.Specification
import Halquen.Protocol.Frames
import Halquen.Protocol.Messages
import Halquen.Protocol.Segmentations
import Halquen.Protocol.Transport
import Halquen.Service.AgentFrame
import Halquen.Service.AgentGrants
import Halquen.Service.AgentLookups
import Halquen.Service.AgentReports
import Halquen.Service.AgentRuns
import Halquen.Service.Agents
import Halquen.Service.Aliases
import Halquen.Service.ApplicationEntities
import Halquen.Service.AuditTrail
import Halquen.Service.CallAccounting
import Halquen.Service.Cancellation
import Halquen.Service.Chat
import Halquen.Service.ChatParser
import Halquen.Service.Confirmations
import Halquen.Service.ConfirmedGrants
import Halquen.Service.ConnectionProgress
import Halquen.Service.ConnectionSafety
import Halquen.Service.Connections
import Halquen.Service.Context
import Halquen.Service.DeniedConfirmations
import Halquen.Service.DryRun
import Halquen.Service.Durability
import Halquen.Service.Egress
import Halquen.Service.Evolution
import Halquen.Service.Fallback
import Halquen.Service.Gateway
import Halquen.Service.GrantClaims
import Halquen.Service.GrantLookup
import Halquen.Service.GrantRuns
import Halquen.Service.Handler
import Halquen.Service.KeyTexts
import Halquen.Service.LaunchReports
import Halquen.Service.Ledger
import Halquen.Service.LedgerRestore
import Halquen.Service.LogPruning
import Halquen.Service.MemoryFrame
import Halquen.Service.MemoryHistory
import Halquen.Service.MemorySearch
import Halquen.Service.MemoryService
import Halquen.Service.ModelCalls
import Halquen.Service.Preferences
import Halquen.Service.Preview
import Halquen.Service.Proposals
import Halquen.Service.Providers
import Halquen.Service.Redaction
import Halquen.Service.Registrations
import Halquen.Service.RequestIsolation
import Halquen.Service.RequestPreview
import Halquen.Service.SecurityService
import Halquen.Service.SessionGrants
import Halquen.Service.SingleUse
import Halquen.Service.Snapshot
import Halquen.Service.State
import Halquen.Service.TextCuts
import Halquen.Storage.Agents
import Halquen.Storage.Applications
import Halquen.Storage.Audit
import Halquen.Storage.AuditLog
import Halquen.Storage.CacheReuse
import Halquen.Storage.Conversations
import Halquen.Storage.GrantUse
import Halquen.Storage.Grants
import Halquen.Storage.Integrity
import Halquen.Storage.IntentUsage
import Halquen.Storage.Interaction
import Halquen.Storage.LabelLookup
import Halquen.Storage.Labels
import Halquen.Storage.LedgerRefinement
import Halquen.Storage.Memory
import Halquen.Storage.MemoryChain
import Halquen.Storage.MemoryListing
import Halquen.Storage.Migrations
import Halquen.Storage.Operations
import Halquen.Storage.PromotionGate
import Halquen.Storage.Providers
import Halquen.Storage.ResponseCache
import Halquen.Storage.RevisionOrder
import Halquen.Storage.RoundTrips
import Halquen.Storage.SessionLifecycle
import Halquen.Storage.Sessions
import Halquen.Storage.Sqlite
import Halquen.Storage.Paths
