import Halquen.Ai.Prompt
import Halquen.Ai.Router
import Halquen.Ai.Secret
import Halquen.Library.Ranking
import Halquen.Service.Chat
import Halquen.Service.Providers
import Halquen.Storage.Operations

/-!
# The AI gateway

A chat message that the local parser does not resolve is answered from the response cache or by a
model. This module is the path of such a request through the service, on all tables of the
database: the message is stored, the cache is asked, a model is selected and called with a prompt
and a context, and what it returns is kept as a candidate for the cache, counted and stored. The
preview of a request, which repeats the first part without a message being sent, stands at the end.

Every statement succeeds here unless its own checks or a constraint refuse it.
-/

set_option autoImplicit false

namespace Halquen.Service.Gateway

open Halquen.Domain.Ids Halquen.Domain.Capability Halquen.Domain.Gateway
open Halquen.Domain.Interaction Halquen.Protocol.Messages
open Halquen.Ai.Context Halquen.Ai.Prompt Halquen.Ai.Provider Halquen.Ai.Router Halquen.Ai.Secret
open Halquen.Library.Action Halquen.Library.Action.Act Halquen.Library.Ranking Halquen.Library.Sql
open Halquen.Service.Chat (userMessageOf)
open Halquen.Service.ChatParser
open Halquen.Service.Providers (sanitizedAiError secretStoreError)
open Halquen.Service.State (Failure internalError validation)
open Halquen.Storage.Grants (StorageError)
open Halquen.Storage.Interaction Halquen.Storage.Labels Halquen.Storage.Operations
open Halquen.Storage.Providers Halquen.Storage.ResponseCache Halquen.Storage.Sqlite

/-! ## Environment and state -/

/-- What the service consults outside of its database. A function that takes a number answers the
consultation of that number. -/
structure Environment where
  texts : TextTables
  clock : Nat → Int
  stamp : Nat → Stamp
  elapsedMs : Nat → UInt64
  retrieve : Nat → String → Except SecretError String
  /-- The request is cancelled before the call. -/
  cancelled : Nat → Bool
  /-- Reply of the provider client, unless the request is cancelled during the call. -/
  complete : Nat → Domain.Gateway.Provider → AiModel → Option String → AiRequest →
    Option (Except AiError AiResponse)

/-- A request that was handed to the provider client. -/
structure Exchange where
  provider : Domain.Gateway.Provider
  model : AiModel
  request : AiRequest
  reply : Option (Except AiError AiResponse)

/-- The tables, how often the world was asked, and the calls of models made so far. -/
structure GatewayState where
  tables : Tables
  consulted : Nat
  exchanges : List Exchange

/-- A computation of the service. -/
abbrev Operation (α : Type) := Act GatewayState Failure α

/-- Asks the environment, which answers by the number of the question. -/
def consult {α : Type} (f : Nat → α) : Operation α := fun s =>
  (.ok (f s.consulted), { s with consulted := s.consulted + 1 })

/-- A storage method, whose failure is an internal error of the request. -/
def query {α : Type} (m : Act Tables StorageError α) : Operation α :=
  mapError (fun _ => internalError)
    (within GatewayState.tables (fun s tables => { s with tables := tables }) m)

/-- A reading of the tables. -/
def read {α : Type} (f : Tables → Except StorageError α) : Operation α := query (reads f)

/-! ## Reading methods -/

/-- The name of a task, as it is stored with usage. -/
def aiTask : AiTaskType → String
  | .conversation => "conversation"
  | .memoryInterpretation => "memory_interpretation"
  | .consolidation => "consolidation"

/-- `ORDER BY is_default DESC, priority DESC, display_name COLLATE NOCASE`. -/
def modelKey (row : ModelRow) : (Nat ×ₗ Int) ×ₗ (String ×ₗ Nat) :=
  toLex (toLex (if row.isDefault then 0 else 1, -row.priority.toInt), nocaseKey row.displayName)

/-- The tasks of a model are read `ORDER BY task_type`. -/
def listModels (rows : List ModelRow) : List AiModel :=
  (orderBy modelKey rows).map fun row =>
    { row with taskEligibility := orderBy aiTask row.taskEligibility }

/-- `ORDER BY created_at_ms DESC, rowid DESC LIMIT ?`, reversed. -/
def listChatMessages (t : InteractionTables) (sessionId : ChatSessionId) (limit : Nat) :
    List ChatMessage :=
  lastRows ChatMessage.createdAtMs (min 500 (max 1 limit))
    (t.chatMessages.filter fun message => message.sessionId == sessionId)

/-! ## Prompt and context of a request -/

/-- `{:?}` of a role. -/
def roleName : ChatRole → String
  | .user => "User"
  | .assistant => "Assistant"
  | .system => "System"

/-- A message of the conversation as an item of the context. -/
def contextItem (message : ChatMessage) : ContextItem where
  category := .recentConversation
  content := roleName message.role ++ ": " ++ message.content
  priority := 10
  untrusted := message.origin != .user

/-- The managed prompt of a conversation. -/
def conversationProfile : PromptProfile where
  version := 1
  task := .conversation
  taskInstructions := "Answer the current conversational request. Do not propose or claim side effects unless a typed schema explicitly permits it."
  outputSchema := none

/-- What the router is asked for a message. -/
def routeRequest (settings : ApplicationSettings) (selection : ModelSelection) : RouteRequest where
  task := .conversation
  selection := selection
  containsPersonalContext := settings.allowPersonalContext

/-- The recent conversation, without the message that is being answered. -/
def recentContext (t : Tables) (session : ChatSession) (userMessage : ChatMessage) :
    ContextProjection :=
  let history := if t.settings.allowPersonalContext then
      (listChatMessages t.database.interaction session.id 8).filter fun message =>
        message.id != userMessage.id
    else []
  build t.settings.maxContextTokens.toNat (history.map contextItem)

/-- What is sent to the model for a message. -/
def requestOf (settings : ApplicationSettings) (userMessage : ChatMessage)
    (projection : ContextProjection) : AiRequest where
  task := .conversation
  systemPrompt := compose conversationProfile settings.personalInstructions
  userMessage := userMessage.content
  context := projection.items
  maxOutputTokens := settings.maxOutputTokens

/-- A call that is ready to be made. -/
structure Prepared where
  provider : Domain.Gateway.Provider
  model : AiModel
  credential : Option String
  selected : SelectedModel
  projection : ContextProjection
  request : AiRequest
  deriving DecidableEq

section

variable (E : Environment)

/-- `now_ms`: the time, asked of the environment. -/
def now : Operation Int := consult E.clock

/-- A fresh identifier, stamped by the environment. -/
def generate (kind : GeneratedKind) : Operation (TypedId (.generated kind)) :=
  consult fun n => .generate kind (E.stamp n)

/-- One storage operation on conversations and usage. -/
def perform (operation : InteractionOperation) : Operation Unit := query operation.perform

/-- `activity`: one more line of the activity list. -/
def activity (sessionId : ChatSessionId) (correlationId : String) (kind : ActivityKind)
    (summary : String) (detail : Option String) : Operation Unit := do
  let id ← generate E .activity
  let createdAtMs ← now E
  perform (.appendActivity ⟨id, some sessionId, correlationId, kind, summary, detail, createdAtMs⟩)

/-! ## Selection -/

/-- `provider_credential`: the secret of a provider, if it has one. -/
def providerCredential (provider : Domain.Gateway.Provider) : Operation (Option String) :=
  match provider.credentialId with
  | none => return none
  | some reference => do
      let secret ← consult fun n => E.retrieve n reference
      ofExcept ((secret.map some).mapError fun _ => secretStoreError)

/-- The model of a request, or why there is none. -/
def route (selection : ModelSelection) :
    Operation (Except RouteError SelectedModel × List Domain.Gateway.Provider × List AiModel) := do
  let settings ← gets fun s => s.tables.settings
  let providers ← read fun t => listProviders t.providers
  let models ← read fun t => .ok (listModels t.models)
  return (select settings providers models (routeRequest settings selection), providers, models)

/-- The part of `ai_fallback` before the call: a route, its provider and its context. -/
def prepare (selection : ModelSelection) (session : ChatSession) (userMessage : ChatMessage) :
    Operation (Except RouteError Prepared) := do
  let (selected, providers, models) ← route selection
  match selected with
  | .error e => return .error e
  | .ok selected => do
      let provider ← orThrow internalError
        (providers.find? fun provider => provider.id == selected.providerId)
      let model ← orThrow internalError (models.find? fun model => model.id == selected.modelId)
      let credential ← providerCredential E provider
      let projection ← gets fun s => recentContext s.tables session userMessage
      let settings ← gets fun s => s.tables.settings
      return .ok ⟨provider, model, credential, selected, projection,
        requestOf settings userMessage projection⟩

/-! ## Answers -/

/-- `assistant_message`: the answer with its route and its cost. -/
def assistantMessage (sessionId : ChatSessionId) (content : String) (origin : ChatOrigin)
    (route : ChatRoute) (used : Option (Domain.Gateway.Provider × AiModel × AiUsage))
    (reusableCandidateId : Option CacheEntryId) : Operation ChatMessage := do
  let id ← generate E .chatMessage
  let latencyMs ← consult E.elapsedMs
  let createdAtMs ← now E
  return {
    id, sessionId, content, origin, reusableCandidateId, createdAtMs
    role := .assistant
    route := some route
    providerId := used.map fun used => used.1.id
    modelId := used.map fun used => used.2.1.id
    inputTokens := used.map fun used => used.2.2.inputTokens
    outputTokens := used.map fun used => used.2.2.outputTokens
    latencyMs := some latencyMs }

/-- `finish_chat`: the answer is stored before it is returned. -/
def finishChat (session : ChatSession) (userMessage assistantMessage : ChatMessage) :
    Operation ChatResult := do
  perform (.appendChatMessage assistantMessage)
  return ⟨session, userMessage, assistantMessage, none⟩

/-- Answer of the system itself. -/
def answerUnavailable (session : ChatSession) (userMessage : ChatMessage) (content : String) :
    Operation ChatResult := do
  let message ← assistantMessage E session.id content .system .unavailable none none
  finishChat session userMessage message

/-! ## The call -/

/-- `{:?}` of a privacy class. -/
def privacyName : PrivacyClass → String
  | .local => "Local"
  | .cloud => "Cloud"

/-- What the activity list says of the model chosen. -/
def selectionDetail (prepared : Prepared) : String :=
  "provider=" ++ prepared.provider.name ++ " model=" ++ prepared.model.displayName ++ " privacy="
    ++ privacyName prepared.provider.privacy ++ " context≈"
    ++ toString prepared.projection.estimatedTokens ++ " tokens reason="
    ++ prepared.selected.reasonCode

/-- The provider client is called, unless the request was cancelled before. -/
def exchange (prepared : Prepared) : Operation (Option (Except AiError AiResponse)) := do
  let cancelled ← consult E.cancelled
  if cancelled then
    return none
  else
    let reply ← consult fun n =>
      E.complete n prepared.provider prepared.model prepared.credential prepared.request
    modify fun s => { s with
      exchanges := s.exchanges ++ [⟨prepared.provider, prepared.model, prepared.request, reply⟩] }
    return reply

/-- A candidate for reuse is kept for thirty days. -/
def responseCandidateTtlMs : Int := 30 * 24 * 60 * 60 * 1000

/-- The response as a candidate for reuse, not yet trusted. -/
def responseCandidate (id : CacheEntryId) (prepared : Prepared) (userMessage : ChatMessage)
    (response : AiResponse) (createdAtMs : Int) : CachedResponse where
  id := id
  normalizedRequest := String.ofList (normalizeRequest E.texts userMessage.content.toList)
  response := response.content
  contextKey := "global"
  confidencePermille := 550
  priorityPermille := 500
  trust := .aiInferred
  validUntilMs := some (saturatingAdd createdAtMs responseCandidateTtlMs)
  reusable := false
  createdAtMs := createdAtMs
  lastUsedAtMs := none
  usageCount := 0
  successCount := 0
  correctionCount := 0
  originalProviderId := some prepared.provider.id
  originalModelId := some prepared.model.id
  estimatedTokensAvoided := 0

/-- A response that was given without any context is kept as a candidate. -/
def keepCandidate (prepared : Prepared) (userMessage : ChatMessage) (response : AiResponse) :
    Operation (Option CacheEntryId) :=
  if prepared.projection.items.isEmpty then do
    let createdAtMs ← now E
    let id ← generate E .cacheEntry
    perform (.storeResponseCandidate
      (responseCandidate E id prepared userMessage response createdAtMs))
    return some id
  else
    return none

/-- The usage of one answered call. -/
def usageOf (usage : AiUsage) : UsageStats :=
  { UsageStats.zero with
    modelRequests := 1
    inputTokens := usage.inputTokens.toUInt64
    outputTokens := usage.outputTokens.toUInt64
    cachedTokens := usage.cachedTokens.toUInt64
    aiFallbacks := 1 }

/-- The usage of one failed call. -/
def failedUsage : UsageStats :=
  { UsageStats.zero with modelRequests := 1, aiFallbacks := 1, failedProviderCalls := 1 }

/-- What the activity list says of a finished call. -/
def completionDetail (usage : AiUsage) (reusableCandidate : Bool) : String :=
  "input=" ++ toString usage.inputTokens.toNat ++ " output=" ++ toString usage.outputTokens.toNat
    ++ " cached=" ++ toString usage.cachedTokens.toNat ++ " reusable_candidate="
    ++ (if reusableCandidate then "true" else "false")

/-- The part of `ai_fallback` after an answer: candidate, usage and message are stored, in this
order. -/
def answerCompleted (prepared : Prepared) (session : ChatSession) (userMessage : ChatMessage)
    (correlationId : String) (response : AiResponse) : Operation ChatResult := do
  let candidateId ← keepCandidate E prepared userMessage response
  perform (.addUsage (usageOf response.usage))
  activity E session.id correlationId .aiCompleted "AI response completed"
    (some (completionDetail response.usage candidateId.isSome))
  let message ← assistantMessage E session.id response.content .ai .ai
    (some (prepared.provider, prepared.model, response.usage)) candidateId
  finishChat session userMessage message

/-- The part of `ai_fallback` after a failure. -/
def answerFailed (session : ChatSession) (userMessage : ChatMessage) (correlationId : String)
    (error : AiError) : Operation ChatResult := do
  perform (.addUsage failedUsage)
  activity E session.id correlationId .aiFailed "AI provider request failed"
    (some (sanitizedAiError error))
  answerUnavailable E session userMessage
    ("AI is currently unavailable. " ++ sanitizedAiError error)

/-- The part of `ai_fallback` after a cancellation: what the provider does is not used. -/
def answerCancelled (session : ChatSession) (userMessage : ChatMessage) (correlationId : String) :
    Operation ChatResult := do
  activity E session.id correlationId .aiFailed "AI request cancelled"
    (some "The in-progress provider request was dropped without using its result")
  answerUnavailable E session userMessage "Request cancelled."

/-- One call of a model with what follows from it. -/
def answerCall (prepared : Prepared) (session : ChatSession) (userMessage : ChatMessage)
    (correlationId : String) : Operation ChatResult := do
  activity E session.id correlationId .aiSelected "AI fallback selected"
    (some (selectionDetail prepared))
  match ← exchange E prepared with
  | none => answerCancelled E session userMessage correlationId
  | some (.ok response) => answerCompleted E prepared session userMessage correlationId response
  | some (.error error) => answerFailed E session userMessage correlationId error

/-- `ai_fallback`: without a route the user is told so. -/
def aiFallback (selection : ModelSelection) (session : ChatSession) (userMessage : ChatMessage)
    (correlationId : String) : Operation ChatResult := do
  match ← prepare E selection session userMessage with
  | .error e => do
      activity E session.id correlationId .localRouteMiss "Request could not be resolved locally"
        (some e.message)
      answerUnavailable E session userMessage
        "I couldn't resolve this locally and no eligible AI provider is configured."
  | .ok prepared => answerCall E prepared session userMessage correlationId

/-! ## The request -/

/-- The message is stored, in its session or in a new one. -/
def receive (request : ChatRequest) (correlationId : String) :
    Operation (ChatSession × ChatMessage) := do
  let message := String.ofList (trim request.message.toList)
  require (message != "" && decide (message.utf8ByteSize ≤ 16384))
    (validation "message must contain between 1 and 16384 bytes")
  let timestamp ← now E
  let fresh ← generate E .chatSession
  let session ← query (onDatabase (onInteraction
    (ensureChatSession request.sessionId message timestamp fresh)))
  let id ← generate E .chatMessage
  let userMessage := userMessageOf id session.id message timestamp
  perform (.appendChatMessage userMessage)
  activity E session.id correlationId .requestReceived "Request received" none
  return (session, userMessage)

/-- A reusable response, if the settings prefer one. -/
def cachedAnswer (userMessage : ChatMessage) : Operation (Option CachedResponse) := do
  let settings ← gets fun s => s.tables.settings
  if settings.preferCachedLocal then
    read fun t => cachedResponse t.responseCache
      (String.ofList (normalizeRequest E.texts userMessage.content.toList)) "global"
      userMessage.createdAtMs
  else
    return none

/-- The answer from the cache, for which no provider is contacted. -/
def answerCached (session : ChatSession) (userMessage : ChatMessage) (correlationId : String)
    (entry : CachedResponse) : Operation ChatResult := do
  let estimated := (userMessage.content.length + entry.response.length) / 4
  perform (.recordCacheHit entry.id userMessage.createdAtMs (.ofNat estimated))
  activity E session.id correlationId .cacheHit "Reusable response resolved locally"
    (some "No AI provider was contacted")
  let message ← assistantMessage E session.id entry.response .cache .responseCache none
    (some entry.id)
  finishChat session userMessage message

/-- Cache and model, for a message that is stored and that the local parser does not resolve. -/
def respond (selection : ModelSelection) (session : ChatSession) (userMessage : ChatMessage)
    (correlationId : String) : Operation ChatResult := do
  match ← cachedAnswer E userMessage with
  | some entry => answerCached E session userMessage correlationId entry
  | none => do
      activity E session.id correlationId .cacheMiss "No reusable local response matched" none
      aiFallback E selection session userMessage correlationId

/-- What becomes of a request: a local intent is handled as in `Halquen.Service.Chat`. -/
inductive ChatOutcome where
  | «local» (intent : LocalIntent) (session : ChatSession) (userMessage : ChatMessage)
  | answered (result : ChatResult)

/-- `chat`, up to the intent that is handled locally. -/
def chat (request : ChatRequest) (correlationId : String) : Operation ChatOutcome := do
  let (session, userMessage) ← receive E request correlationId
  let resolved ← orThrow .panicked (resolveLocal E.texts userMessage.content.toList)
  match resolved with
  | some intent => return .local intent session userMessage
  | none => return .answered (← respond E request.modelSelection session userMessage correlationId)

end

/-! ## The preview -/

/-- What a preview shows of the request that would be sent. -/
structure PromptPreview where
  providerId : Option ProviderId
  modelId : Option ModelId
  task : AiTaskType
  estimatedContextTokens : Nat
  contextCategories : List ContextCategory
  personalInstructions : String
  coreContractManaged : Bool

/-- The context that the preview projects. -/
def previewContext (t : Tables) (request : ChatRequest) : ContextProjection :=
  let history := if t.settings.allowPersonalContext then
      (request.sessionId.map fun id => listChatMessages t.database.interaction id 8).getD []
    else []
  build t.settings.maxContextTokens.toNat (history.map contextItem)

/-- The route request of the preview. -/
def previewRoute (settings : ApplicationSettings) (request : ChatRequest) : RouteRequest where
  task := .conversation
  selection := request.modelSelection
  containsPersonalContext := settings.allowPersonalContext && request.sessionId.isSome

/-- `preview_ai_request`: what would be sent, without sending it. -/
def previewAiRequest (t : Tables) (request : ChatRequest) : Except Failure PromptPreview := do
  if isBlank request.message || decide (16384 < request.message.utf8ByteSize) then
    throw (validation "message must contain between 1 and 16384 bytes")
  let providers ← (listProviders t.providers).mapError fun _ => internalError
  let models := listModels t.models
  let selected := (select t.settings providers models (previewRoute t.settings request)).toOption
  let projection := previewContext t request
  return {
    providerId := selected.map SelectedModel.providerId
    modelId := selected.map SelectedModel.modelId
    task := .conversation
    estimatedContextTokens :=
      saturatingAddU32 (estimateTokens request.message) projection.estimatedTokens
    contextCategories := .currentRequest ::
      (if projection.items.isEmpty then [] else [.recentConversation])
    personalInstructions := t.settings.personalInstructions
    coreContractManaged := true }

end Halquen.Service.Gateway
