import Halquen.Service.Confirmations
import Halquen.Service.MemoryService

/-!
# Chats

A chat message that the local parser resolves is handled without a model: an application is opened,
a preference is remembered or forgotten. Every other message goes to the response cache or to the
AI gateway, which have access to the tables of the interaction only.

Opening an application goes through the same pipeline as every other proposal. Where the policy
asks for a confirmation, the proposal is kept as it was evaluated, with the classification that the
application had at that moment.
-/

set_option autoImplicit false

namespace Halquen.Service.Chat

open Halquen.Domain.Ids Halquen.Domain.Capability Halquen.Domain.Security Halquen.Domain.Interaction
open Halquen.Policy.Engine Halquen.Audit.Receipt Halquen.Memory.Semantic Halquen.Protocol.Messages
open Halquen.Library.Action Halquen.Library.Action.Act
open Halquen.Service.ChatParser Halquen.Service.State Halquen.Service.Proposals
open Halquen.Service.Confirmations Halquen.Service.MemoryService
open Halquen.Storage.Grants (StorageError)
open Halquen.Storage.Interaction Halquen.Storage.Memory Halquen.Storage.Sqlite

/-- `CONFIRMATION_TTL_MS`: five minutes. -/
def confirmationTtlMs : Int := 5 * 60 * 1000

/-! ## Messages -/

/-- The message of the user, as it is stored. -/
def userMessageOf (id : ChatMessageId) (sessionId : ChatSessionId) (content : String)
    (createdAtMs : Int) : ChatMessage where
  id := id
  sessionId := sessionId
  role := .user
  content := content
  origin := .user
  route := none
  providerId := none
  modelId := none
  inputTokens := none
  outputTokens := none
  latencyMs := none
  reusableCandidateId := none
  createdAtMs := createdAtMs

/-- `{:?}` of a status. -/
def statusName : ExecutionStatus → String
  | .dryRunSucceeded => "DryRunSucceeded"
  | .succeeded => "Succeeded"
  | .failed => "Failed"
  | .timedOut => "TimedOut"
  | .notExecuted => "NotExecuted"

/-- What the activity list says of an execution. -/
def executionDetail (receipt : ExecutionReceipt) : String :=
  receipt.capabilityId.asStr ++ " v" ++ toString receipt.capabilityVersion ++ " · "
    ++ statusName receipt.status

/-- Name of an application that is shown to the user. -/
def displayForEntity (entity : EntityId) : String :=
  String.ofList (((stripPrefix "app:" entity.asStr.toList).getD entity.asStr.toList).map fun c =>
    if c = '_' then ' ' else c)

section

variable (W : World)

/-- `activity`: one more line of the activity list. -/
def activity (sessionId : Option ChatSessionId) (correlationId : String) (kind : ActivityKind)
    (summary : String) (detail : Option String) : Operation Unit := do
  let id ← generate W .activity
  let createdAtMs ← now W
  query W .appendActivity
    (onInteraction
      (appendActivity ⟨id, sessionId, correlationId, kind, summary, detail, createdAtMs⟩))

/-- Adds to the usage of the day. -/
def countUsage (delta : UsageStats) : Operation Unit :=
  query W .addUsage (onInteraction (addUsage delta))

/-- Message of the assistant on a local route. -/
def assistantMessage (sessionId : ChatSessionId) (content : String) (route : ChatRoute) :
    Operation ChatMessage := do
  let id ← generate W .chatMessage
  let latencyMs ← consult W.elapsedMs
  let createdAtMs ← now W
  return {
    id, sessionId, content, createdAtMs
    role := .assistant
    origin := .local
    route := some route
    providerId := none
    modelId := none
    inputTokens := none
    outputTokens := none
    latencyMs := some latencyMs
    reusableCandidateId := none }

/-- `finish_chat`: the answer is stored before it is returned. -/
def finishChat (session : ChatSession) (userMessage assistantMessage : ChatMessage)
    (confirmation : Option ConfirmationPrompt) : Operation ProtocolResponse := do
  query W .appendChatMessage (onInteraction (appendChatMessage assistantMessage))
  return .chat ⟨session, userMessage, assistantMessage, confirmation⟩

/-- Answers on a local route. -/
def answer (session : ChatSession) (userMessage : ChatMessage) (content : String)
    (route : ChatRoute) (confirmation : Option ConfirmationPrompt)
    : Operation ProtocolResponse := do
  let message ← assistantMessage W session.id content route
  finishChat W session userMessage message confirmation

/-! ## Opening an application -/

/-- A preference of this name stands for another application. -/
def aliased (displayName : String) (entityId : EntityId)
    (preferred : Option (MemoryItem × MemoryRevision)) : String × EntityId :=
  match preferred with
  | some (_, revision) =>
      match revision.value with
      | .preference _ value =>
          match applicationEntity W.tables value.toList with
          | some entity => (value, entity)
          | none => (displayName, entityId)
      | _ => (displayName, entityId)
  | none => (displayName, entityId)

/-- Proposal to open an application of this classification. -/
def openProposal (correlationId : String) (app : EntityId)
    (classification : ResourceClassification) : Except SecurityValidationError ActionProposal :=
  ActionProposal.new ⟨openAppDescriptor.id, .openApp app⟩
    ((ActionContext.localResolution (some correlationId)).withResource
      ⟨.application, app.asStr, classification⟩)

/-- A prompt has the identifier of a proposal behind a prefix of its own. -/
def confirmationIdOf (stamp : Stamp) : String :=
  "confirmation:" ++ (TypedId.generate .proposal stamp).asStr

/-- What the user is shown of a pending launch. -/
def promptOf (confirmationId displayName : String) (expiresAtMs : Int)
    (proposal : ActionProposal) : ConfirmationPrompt where
  confirmationId := confirmationId
  title := "Open " ++ displayName
  reason := "Policy requires explicit confirmation"
  expiresAtMs := expiresAtMs
  operation := "system.open_app"
  target := displayName
  destination := none
  origin := proposal.context.origin
  resourceClassifications := proposal.context.resources.map ResourceDescriptor.classification
  agentId := none
  agentSessionId := none

/-- `pending_confirmations.insert(...)`. -/
def insertPending (confirmationId : String) (pending : PendingConfirmation) : Operation Unit :=
  modify fun s => { s with
    data := (s.data.setPending confirmationId (some pending)).note [.issued confirmationId] }

/-- The pending confirmation is kept before the prompt is returned. -/
def issueConfirmation (proposal : ActionProposal) (receipt : ExecutionReceipt)
    (session : ChatSession) (displayName : String) : Operation ConfirmationPrompt := do
  let confirmationId ← consult fun n => confirmationIdOf (W.stamp n)
  let nowMs ← now W
  let expiresAtMs := saturatingAdd nowMs confirmationTtlMs
  insertPending confirmationId
    ⟨receipt.executionId, proposal, "Open " ++ displayName, expiresAtMs, some session.id⟩
  return promptOf confirmationId displayName expiresAtMs proposal

/-- The answer after a launch, which says when nothing was launched. -/
def openedContent (displayName : String) (status : ExecutionStatus) : String :=
  if status = .dryRunSucceeded then
    "Dry-run completed for " ++ displayName ++ ". No application was launched."
  else
    "Launch request completed for " ++ displayName ++ "."

/-- What the user is told about an execution that was asked for in a chat. -/
def answerExecution (proposal : ActionProposal) (app : EntityId) (displayName : String)
    (session : ChatSession) (correlationId : String) :
    ProtocolResponse → Operation (String × Option ConfirmationPrompt)
  | .execution decision receipt =>
      match decision.outcome with
      | .allow => do
          recordUse W app
          activity W (some session.id) correlationId .executionCompleted
            "Local capability execution completed" (some (executionDetail receipt))
          return (openedContent displayName receipt.status, none)
      | .confirm => do
          let prompt ← issueConfirmation W proposal receipt session displayName
          activity W (some session.id) correlationId .confirmationRequired
            "Action requires confirmation"
            (some "Allow once is available; dismissing does not confirm")
          return ("Confirmation is required before this action can run.", some prompt)
      | .deny => return ("Halquen denied this action.", none)
  | _ => throw internalError

/-- Proposal for an application, under its stored classification. -/
def proposeOpen (correlationId : String) (app : EntityId) : Operation ActionProposal := do
  let classification ← applicationClassification W app
  ofExcept ((openProposal correlationId app classification).mapError fun _ =>
    validation "local action context is invalid")

/-- Execution of an open proposal, up to the answer. -/
def executeOpen (app : EntityId) (displayName : String) (session : ChatSession)
    (correlationId : String) : Operation (String × Option ConfirmationPrompt) := do
  let proposal ← proposeOpen W correlationId app
  let response ← executeProposal W proposal (some session.id)
  answerExecution W proposal app displayName session correlationId response

/-- A request that was answered without a model. -/
def oneLocalResolution : UsageStats := { UsageStats.zero with localResolutions := 1 }

/-- A request that was answered with a question. -/
def oneClarification : UsageStats := { UsageStats.zero with clarifications := 1 }

/-- The `OpenApp` branch of `handle_local_intent`: the remembered alias is looked up, then the
launch is proposed. -/
def openApp (displayName : String) (entityId : EntityId) (session : ChatSession)
    (userMessage : ChatMessage) (correlationId : String) : Operation ProtocolResponse := do
  let preferred ← read W .preferenceByKey fun d => .ok (preferenceByKey d.memory displayName)
  let target := aliased W displayName entityId preferred
  let result ← executeOpen W target.2 target.1 session correlationId
  countUsage W oneLocalResolution
  activity W (some session.id) correlationId .localRouteHit "Resolved locally as system.open_app"
    (some "No AI used")
  answer W session userMessage result.1 .localCapability result.2

/-! ## Other intents -/

/-- The `RememberPreference` branch of `handle_local_intent`. -/
def rememberPreference (key value : String) (session : ChatSession) (userMessage : ChatMessage)
    (correlationId : String) : Operation ProtocolResponse := do
  let _ ← commitPreference W key value ("chat:" ++ userMessage.id.asStr)
  countUsage W oneLocalResolution
  activity W (some session.id) correlationId .memoryCommitted
    "Explicit preference stored as versioned semantic memory" (some (key ++ " → " ++ value))
  answer W session userMessage ("Remembered.\n" ++ key ++ " → " ++ value) .localMemory none

/-- Disables the item of a preference, if there is one. -/
def disablePreference (key : String) (session : ChatSession) (correlationId : String) :
    Option (MemoryItem × MemoryRevision) → Operation String
  | some (item, _) => do
      let _ ← query W .setMemoryState (onMemory (setMemoryState item.id none (some true) none))
      activity W (some session.id) correlationId .memoryCommitted "Memory item disabled" (some key)
      return "Forgot the preference “" ++ key ++ "”."
  | none => return "I couldn't find an active preference named “" ++ key ++ "”."

/-- The `ForgetPreference` branch of `handle_local_intent`: the preference is disabled, not
deleted. -/
def forgetPreference (key : String) (session : ChatSession) (userMessage : ChatMessage)
    (correlationId : String) : Operation ProtocolResponse := do
  let existing ← read W .preferenceByKey fun d => .ok (preferenceByKey d.memory key)
  let content ← disablePreference W key session correlationId existing
  countUsage W oneLocalResolution
  answer W session userMessage content .localMemory none

/-- The candidates with their scores, as the user is shown them. -/
def candidateDetail (candidates : List IntentCandidate) : String :=
  " · ".intercalate (candidates.map fun candidate =>
    displayForEntity candidate.entityId ++ " " ++ W.formatScore candidate.scorePermille)

/-- The answer when several applications have been used about as much. -/
def clarifyAmbiguous (candidates : List IntentCandidate) (session : ChatSession)
    (userMessage : ChatMessage) (correlationId : String) : Operation ProtocolResponse := do
  let detail := candidateDetail W candidates
  countUsage W oneClarification
  activity W (some session.id) correlationId .localRouteHit
    "Clarification requested for contextual application intent" (some detail)
  let content := if detail = "" then "Which application should I open?"
    else "Which application did you mean? Recent candidates: " ++ detail
  answer W session userMessage content .clarification none

/-- The answer when no application has been used enough. -/
def clarifyUnknown (session : ChatSession) (userMessage : ChatMessage) :
    Operation ProtocolResponse := do
  countUsage W oneClarification
  answer W session userMessage
    "Which application should I open? I do not have enough recent evidence to choose safely."
    .clarification none

/-- The `ContextualOpenApp` branch of `handle_local_intent`: recent use decides, or the user is
asked. -/
def contextualOpenApp (session : ChatSession) (userMessage : ChatMessage)
    (correlationId : String) : Operation ProtocolResponse := do
  let timestamp ← now W
  let events ← read W .recentIntentUsage fun d =>
    .ok (recentIntentUsage d.interaction "open_application" "application"
      (saturatingSub timestamp defaultRetentionMs) 512)
  match W.resolveBehaviour events timestamp with
  | .resolved candidate =>
      openApp W (displayForEntity candidate.entityId) candidate.entityId session userMessage
        correlationId
  | .ambiguous candidates => clarifyAmbiguous W candidates session userMessage correlationId
  | .unknown => clarifyUnknown W session userMessage

/-- One usage event of a correction. -/
def recordCorrected (entityId : EntityId) (outcome : BehaviourOutcome) (timestamp : Int) :
    Operation Unit := do
  let id ← generate W .behaviourEvent
  query W .recordIntentUsage
    (onInteraction (recordIntentUsage (usageEvent id entityId outcome timestamp)))

/-- The application that a correction names. -/
def correctedEntity (name : String) : Operation EntityId :=
  orThrow (validation "corrected application name is invalid")
    (applicationEntity W.tables name.toList)

/-- The `CorrectOpenApp` branch of `handle_local_intent`: both sides are recorded as behaviour, and
nothing is launched. -/
def correctOpenApp (rejected accepted : String) (session : ChatSession)
    (userMessage : ChatMessage) (correlationId : String) : Operation ProtocolResponse := do
  let timestamp ← now W
  let rejectedEntity ← correctedEntity W rejected
  let acceptedEntity ← correctedEntity W accepted
  recordCorrected W rejectedEntity .correctionRejected timestamp
  recordCorrected W acceptedEntity .correctionAccepted timestamp
  let id ← generate W .correction
  query W .recordCorrection (onInteraction (recordCorrection
    ⟨id, "intent:open_application", rejected ++ " -> " ++ accepted, timestamp⟩))
  openApp W accepted acceptedEntity session userMessage correlationId

/-- `handle_local_intent`, one branch for each intent. -/
def handleLocalIntent (session : ChatSession) (userMessage : ChatMessage)
    (correlationId : String) : LocalIntent → Operation ProtocolResponse
  | .openApp displayName entityId =>
      openApp W displayName entityId session userMessage correlationId
  | .rememberPreference key value =>
      rememberPreference W key value session userMessage correlationId
  | .forgetPreference key => forgetPreference W key session userMessage correlationId
  | .contextualOpenApp => contextualOpenApp W session userMessage correlationId
  | .correctOpenApp rejected accepted =>
      correctOpenApp W rejected accepted session userMessage correlationId

/-! ## Requests -/

/-- The response cache and the AI gateway. -/
def respond (request : ChatRequest) (session : ChatSession) (userMessage : ChatMessage)
    (correlationId : String) : Operation ProtocolResponse := fun s =>
  let outcome := W.respond s.consulted request session userMessage correlationId
    s.data.database.interaction
  ((outcome.1.map .chat).mapError .error,
    { s.next with data := s.data.withInteraction outcome.2 })

/-- `chat`: the message is checked and stored, then answered locally, from the cache or by a
model. -/
def chat (request : ChatRequest) (correlationId : String) : Operation ProtocolResponse := do
  let message := String.ofList (trim request.message.toList)
  require (message != "" && decide (message.utf8ByteSize ≤ 16384))
    (validation "message must contain between 1 and 16384 bytes")
  let timestamp ← now W
  let fresh ← generate W .chatSession
  let session ← query W .ensureChatSession
    (onInteraction (ensureChatSession request.sessionId message timestamp fresh))
  let id ← generate W .chatMessage
  let userMessage := userMessageOf id session.id message timestamp
  query W .appendChatMessage (onInteraction (appendChatMessage userMessage))
  activity W (some session.id) correlationId .requestReceived "Request received" none
  let resolved ← orThrow .panicked (resolveLocal W.tables message.toList)
  match resolved with
  | some intent => handleLocalIntent W session userMessage correlationId intent
  | none => respond W request session userMessage correlationId

end

end Halquen.Service.Chat
