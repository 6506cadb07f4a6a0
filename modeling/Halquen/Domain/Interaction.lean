import Halquen.Domain.Security

/-!
# Interaction records

Chat sessions and messages, activity events, usage counters, corrections and the usage events from
which the contextual intent is resolved.
-/

set_option autoImplicit false

namespace Halquen.Domain.Interaction

open Halquen.Domain.Ids

/-- Who speaks in a chat. -/
inductive ChatRole where
  | user | assistant | system
  deriving DecidableEq, Repr

/-- Where a message comes from. -/
inductive ChatOrigin where
  | user | «local» | cache | ai | system
  deriving DecidableEq, Repr

/-- How a chat was answered. -/
inductive ChatRoute where
  | localCapability | localMemory | responseCache | ai | clarification | unavailable
  deriving DecidableEq, Repr

/-- A conversation, in the order of whose updates the sessions are listed. -/
structure ChatSession where
  id : ChatSessionId
  title : String
  createdAtMs : Int
  updatedAtMs : Int
  deriving DecidableEq

/-- A message of a session. Tokens and latency are known of answers only. -/
structure ChatMessage where
  id : ChatMessageId
  sessionId : ChatSessionId
  role : ChatRole
  content : String
  origin : ChatOrigin
  route : Option ChatRoute
  providerId : Option ProviderId
  modelId : Option ModelId
  inputTokens : Option UInt32
  outputTokens : Option UInt32
  latencyMs : Option UInt64
  reusableCandidateId : Option CacheEntryId
  createdAtMs : Int
  deriving DecidableEq

/-- What the activity log distinguishes. -/
inductive ActivityKind where
  | requestReceived | localRouteHit | localRouteMiss | cacheHit | cacheMiss | aiSelected
  | aiCompleted | aiFailed | memoryCommitted | policyEvaluated | executionCompleted
  | confirmationRequired | error
  deriving DecidableEq, Repr

/-- An entry of the activity log, about the request with this correlation identifier. -/
structure ActivityEvent where
  id : ActivityId
  sessionId : Option ChatSessionId
  correlationId : String
  kind : ActivityKind
  summary : String
  detail : Option String
  createdAtMs : Int
  deriving DecidableEq

/-- The counters of the usage, which only grow. -/
structure UsageStats where
  modelRequests : UInt64
  inputTokens : UInt64
  outputTokens : UInt64
  cachedTokens : UInt64
  aiFallbacks : UInt64
  localResolutions : UInt64
  responseCacheHits : UInt64
  clarifications : UInt64
  failedProviderCalls : UInt64
  estimatedTokensAvoided : UInt64
  deriving DecidableEq

/-- Nothing has been used. -/
def UsageStats.zero : UsageStats := ⟨0, 0, 0, 0, 0, 0, 0, 0, 0, 0⟩

/-- What the user has corrected. -/
structure Correction where
  id : CorrectionId
  targetId : String
  correctionSummary : String
  createdAtMs : Int
  deriving DecidableEq

/-- What became of the use of an entity. -/
inductive BehaviourOutcome where
  | success | failure | correctionAccepted | correctionRejected
  deriving DecidableEq, Repr

/-- One use of an entity for an intent, from which behaviour is learned. -/
structure IntentUsageEvent where
  id : BehaviourEventId
  intent : String
  entityId : EntityId
  outcome : BehaviourOutcome
  contextClass : String
  createdAtMs : Int
  deriving DecidableEq

/-- An entity that past behaviour suggests, with its score. -/
structure IntentCandidate where
  entityId : EntityId
  scorePermille : Nat
  deriving DecidableEq

/-- What the usage events say about a contextual intent. -/
inductive IntentResolution where
  | resolved (candidate : IntentCandidate)
  | ambiguous (candidates : List IntentCandidate)
  | unknown
  deriving DecidableEq

/-- Retention of usage events: 90 days. -/
def defaultRetentionMs : Int := 90 * 24 * 60 * 60 * 1000

/-- Usage events that are kept for one intent and context class. -/
def defaultMaxEvents : Nat := 512

/-- Largest and smallest value of the 64-bit clock. -/
def maxTime : Int := 2 ^ 63 - 1

/-- The least time in milliseconds that is stored. -/
def minTime : Int := -2 ^ 63

/-- `a.saturating_add(b)` on 64-bit integers. -/
def saturatingAdd (a b : Int) : Int := max minTime (min maxTime (a + b))

/-- `a.saturating_sub(b)` on 64-bit integers. -/
def saturatingSub (a b : Int) : Int := max minTime (min maxTime (a - b))

end Halquen.Domain.Interaction
