import Halquen.Audit.Receipt
import Halquen.Domain.Agent
import Halquen.Domain.Interaction
import Halquen.Memory.Semantic

/-!
# Requests and responses

The part of the protocol between the daemon and its clients that changes what the daemon stores:
requests about actions, confirmations, chats, memory, grants, labels, the profile and agents, with
their responses and error bodies.
-/

set_option autoImplicit false

namespace Halquen.Protocol.Messages

open Halquen.Domain.Ids Halquen.Domain.Capability Halquen.Domain.Security Halquen.Domain.Agent
open Halquen.Domain.Interaction Halquen.Policy.Engine Halquen.Audit.Receipt
open Halquen.Memory.Semantic

/-! ## Errors -/

/-- The code by which a client tells one failure from another. -/
inductive ProtocolErrorCode where
  | unknownVersion | malformedRequest | frameTooLarge | invalidAction | notFound | unsupported
  | internal | validation | privacyDenied | providerUnavailable | secretStoreUnavailable
  | confirmationExpired | sandboxUnavailable
  deriving DecidableEq, Repr

/-- A failure as a client reads it. -/
structure ProtocolErrorBody where
  code : ProtocolErrorCode
  message : String
  deriving DecidableEq, Repr

/-! ## Chats and confirmations -/

/-- The model that the user wants for one message. -/
inductive ModelSelection where
  | automatic
  | model (modelId : ModelId)
  deriving DecidableEq

/-- One message of the user. -/
structure ChatRequest where
  sessionId : Option ChatSessionId
  message : String
  modelSelection : ModelSelection
  deriving DecidableEq

/-- What the user is shown of an action that waits for confirmation. -/
structure ConfirmationPrompt where
  confirmationId : String
  title : String
  reason : String
  expiresAtMs : Int
  operation : String
  target : String
  destination : Option DestinationClass
  origin : ActionOrigin
  resourceClassifications : List ResourceClassification
  agentId : Option AgentId
  agentSessionId : Option AgentSessionId
  deriving DecidableEq

/-- The answer to a message, with both sides of the exchange as they were stored. -/
structure ChatResult where
  session : ChatSession
  userMessage : ChatMessage
  assistantMessage : ChatMessage
  confirmation : Option ConfirmationPrompt
  deriving DecidableEq

/-- How long the user's answer to a prompt is to be remembered. -/
inductive ConfirmationPersistence where
  | once | session | «until» | always
  deriving DecidableEq, Repr

/-- What became of an action after the user's answer. -/
structure ConfirmationResult where
  executionId : Option ExecutionId
  accepted : Bool
  message : String
  deriving DecidableEq

/-! ## Memory -/

/-- A change to how a memory may be used. What is absent stays as it is. -/
structure MemoryStateUpdate where
  memoryId : MemoryId
  pinned : Option Bool
  disabled : Option Bool
  priorityPermille : Option Nat
  deriving DecidableEq

/-- The revision that a change of memory has written. -/
structure MemoryMutationReceipt where
  memoryId : MemoryId
  revisionId : MemoryRevisionId
  summary : String
  deriving DecidableEq

/-! ## Grants, labels and agents -/

/-- A grant as a client asks for it, without the identity and the time that the daemon gives it. -/
structure PermissionGrantUpsert where
  id : Option PermissionId
  effect : PermissionEffect
  lifetime : PermissionLifetime
  capabilityId : CapabilityId
  arguments : ActionArguments
  resources : List ResourceDescriptor
  destination : Option DestinationClass
  session : Option PermissionSessionScope
  agentId : Option AgentId
  expiresAtMs : Option Int
  deriving DecidableEq

/-- A label as a client asks for it. -/
structure ResourceLabelUpsert where
  id : Option ResourceLabelId
  name : String
  resourceKind : ResourceKind
  matchKind : ResourceMatchKind
  pattern : String
  classification : ResourceClassification
  dataClassification : DataClassification
  deriving DecidableEq

/-- An agent as a client asks for it. The daemon inspects the executable itself. -/
structure AgentConfigurationUpsert where
  id : Option AgentId
  name : String
  transport : AgentTransport
  executable : String
  arguments : List String
  socketPath : Option String
  sandbox : SandboxBackend
  ownership : ExecutableOwnership
  sha256Hex : Option String
  resourceLimits : AgentResourceLimits
  enabled : Bool
  timeoutMs : Nat
  maxStdoutBytes : Nat
  maxStderrBytes : Nat
  deriving DecidableEq

/-- The configuration, with the identifier that is used where none was given. -/
def AgentConfigurationUpsert.intoConfiguration (input : AgentConfigurationUpsert) (nowMs : Int)
    (executableIdentity : Option ExecutableIdentity) (fresh : AgentId) : AgentConfiguration where
  id := input.id.getD fresh
  name := input.name
  transport := input.transport
  executable := input.executable
  arguments := input.arguments
  socketPath := input.socketPath
  sandbox := input.sandbox
  ownership := input.ownership
  executableIdentity := executableIdentity
  resourceLimits := input.resourceLimits
  enabled := input.enabled
  timeoutMs := input.timeoutMs
  maxStdoutBytes := input.maxStdoutBytes
  maxStderrBytes := input.maxStderrBytes
  createdAtMs := nowMs
  updatedAtMs := nowMs

/-- A run of an agent on some input. -/
structure AgentRunRequest where
  agentId : AgentId
  input : String
  deriving DecidableEq

/-- What became of one proposal of an agent, as the client is told. -/
inductive AgentProposalDisposition where
  | executed | simulated | confirmationRequired | denied | failed
  deriving DecidableEq, Repr

/-- One proposal of an agent with what became of it. -/
structure AgentProposalResult where
  index : Nat
  capabilityId : CapabilityId
  disposition : AgentProposalDisposition
  executionId : Option ExecutionId
  confirmation : Option ConfirmationPrompt
  message : String
  deriving DecidableEq

/-- A finished run: the session, the agent's message and its proposals, in order. -/
structure AgentRunResult where
  session : AgentSession
  message : String
  proposals : List AgentProposalResult
  stderrBytes : Nat
  deriving DecidableEq

/-! ## Requests and responses -/

/-- Requests that change a table, or that invoke an executor. -/
inductive ProtocolRequest where
  | evaluateAction (action : ActionRequest)
  | dryRunAction (action : ActionRequest)
  | executeAction (action : ActionRequest)
  | chat (request : ChatRequest)
  | updateMemoryState (update : MemoryStateUpdate)
  | restoreMemoryRevision (memoryId : MemoryId) (revisionId : MemoryRevisionId)
  | confirmAction (confirmationId : String) (allow : Bool)
      (persistence : ConfirmationPersistence) (expiresAtMs : Option Int)
  | updateSecurityProfile (profile : SecurityProfile)
  | upsertPermissionGrant (grant : PermissionGrantUpsert)
  | revokePermissionGrant (permissionId : PermissionId)
  | upsertResourceLabel (label : ResourceLabelUpsert)
  | removeResourceLabel (resourceLabelId : ResourceLabelId)
  | upsertAgent (agent : AgentConfigurationUpsert)
  | removeAgent (agentId : AgentId)
  | runAgent (request : AgentRunRequest)
  deriving DecidableEq

/-- A request with the identifier that its response must carry. -/
structure RequestEnvelope where
  requestId : String
  request : ProtocolRequest
  deriving DecidableEq

/-- What the daemon answers to a request. -/
inductive ProtocolResponse where
  | evaluation (decision : PolicyDecision)
  | dryRun (decision : PolicyDecision) (receipt : ExecutionReceipt)
  | execution (decision : PolicyDecision) (receipt : ExecutionReceipt)
  | chat (result : ChatResult)
  | memoryUpdated (updated : Bool)
  | memoryMutation (receipt : MemoryMutationReceipt)
  | confirmation (result : ConfirmationResult)
  | securityProfileUpdated (profile : SecurityProfile)
  | permissionSaved (grant : PermissionGrant)
  | permissionRevoked (revoked : Bool)
  | resourceLabelSaved (label : ResourceLabel)
  | resourceLabelRemoved (removed : Bool)
  | agentSaved (agent : AgentConfiguration)
  | agentRemoved (removed : Bool)
  | agentRun (result : AgentRunResult)
  deriving DecidableEq

end Halquen.Protocol.Messages
