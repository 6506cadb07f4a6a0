import Halquen.Domain.Interaction
import Halquen.Library.Action
import Halquen.Storage.Labels

/-!
# Tables of the interaction

Chat sessions, chat messages, activity, usage counters, usage events and corrections. Nothing here
is read by a policy decision.
-/

set_option autoImplicit false

namespace Halquen.Storage.Interaction

open Halquen.Domain.Ids Halquen.Domain.Capability Halquen.Domain.Interaction
open Halquen.Library.Action Halquen.Library.Action.Act Halquen.Library.Sql
open Halquen.Storage.Labels (lengthWithin lengthWithin_entityId)
open Halquen.Storage.Grants (StorageError)

/-- Conversations, activity, usage and behaviour. -/
structure InteractionTables where
  chatSessions : List ChatSession
  chatMessages : List ChatMessage
  activityEvents : List ActivityEvent
  usage : UsageStats
  intentUsageEvents : List IntentUsageEvent
  corrections : List Correction
  deriving DecidableEq

/-- The tables of a new database. -/
def InteractionTables.empty : InteractionTables := ⟨[], [], [], .zero, [], []⟩

/-- `value.split_whitespace()`. -/
def words (value : List Char) : List (List Char) :=
  (value.splitOnP isWhiteSpace).filter fun word => !word.isEmpty

/-- Title of a session: the words of the message, at most 80 characters. -/
def boundedTitle (value : String) : String :=
  let normalized := [' '].intercalate (words value.toList)
  let value := if normalized.isEmpty then "New conversation".toList else normalized
  String.ofList (value.take 80)

/-- `ensure_chat_session`: the conversation of the request, or a new one. -/
def ensureChatSession (requested : Option ChatSessionId) (title : String) (nowMs : Int)
    (fresh : ChatSessionId) : Act InteractionTables StorageError ChatSession := do
  let sessions ← gets InteractionTables.chatSessions
  match requested with
  | some id =>
      orThrow (.invalidInteraction "requested chat session does not exist")
        (sessions.find? fun session => session.id == id)
  | none => do
      let session : ChatSession := ⟨fresh, boundedTitle title, nowMs, nowMs⟩
      require (lengthWithin session.title 256) .database
      let rows ← orThrow .database (insertRow ChatSession.id session sessions)
      modify fun t => { t with chatSessions := rows }
      return session

/-- `u64` values that a column can hold. -/
def fitsColumn (value : UInt64) : Bool := decide ((value.toNat : Int) ≤ maxTime)

/-- `append_chat_message`: the message is written and its conversation moved to the front. -/
def appendChatMessage (message : ChatMessage) : Act InteractionTables StorageError Unit := do
  require (!isBlank message.content && decide (message.content.utf8ByteSize ≤ 65536))
    (.invalidInteraction "chat message is empty or too large")
  require (message.latencyMs.all fitsColumn)
    (.invalidInteraction "numeric value exceeds SQLite integer range")
  transaction do
    let t ← gets fun t => t
    require (t.chatSessions.any (fun session => session.id == message.sessionId)
      && lengthWithin message.content 65536) .database
    let rows ← orThrow .database (insertRow ChatMessage.id message t.chatMessages)
    modify fun t => { t with
      chatMessages := rows
      chatSessions := updateRows
        (fun session : ChatSession => eq (some session.id) (some message.sessionId))
        (fun session => { session with updatedAtMs := message.createdAtMs }) t.chatSessions }

/-- `append_activity`. -/
def appendActivity (event : ActivityEvent) : Act InteractionTables StorageError Unit := do
  require (event.correlationId != "" && decide (event.correlationId.utf8ByteSize ≤ 128)
      && !isBlank event.summary && decide (event.summary.utf8ByteSize ≤ 1024)
      && event.detail.all fun value => decide (value.utf8ByteSize ≤ 4096))
    (.invalidInteraction "activity event is outside accepted bounds")
  let t ← gets fun t => t
  require (event.sessionId.all (fun id => t.chatSessions.any fun session => session.id == id)
    && lengthWithin event.correlationId 128 && lengthWithin event.summary 1024) .database
  let rows ← orThrow .database (insertRow ActivityEvent.id event t.activityEvents)
  modify fun t => { t with activityEvents := rows }

/-- Adds to the counters. Where a sum leaves the range of its column SQLite stores a REAL, which no
later query reads as a counter; here such an update is refused. -/
def addUsage (delta : UsageStats) : Act InteractionTables StorageError Unit := do
  let values := [delta.modelRequests, delta.inputTokens, delta.outputTokens, delta.cachedTokens,
    delta.aiFallbacks, delta.localResolutions, delta.responseCacheHits, delta.clarifications,
    delta.failedProviderCalls, delta.estimatedTokensAvoided]
  require (values.all fitsColumn)
    (.invalidInteraction "numeric value exceeds SQLite integer range")
  let usage ← gets InteractionTables.usage
  let stored := [usage.modelRequests, usage.inputTokens, usage.outputTokens, usage.cachedTokens,
    usage.aiFallbacks, usage.localResolutions, usage.responseCacheHits, usage.clarifications,
    usage.failedProviderCalls, usage.estimatedTokensAvoided]
  require ((stored.zip values).all fun pair =>
    decide ((pair.1.toNat : Int) + pair.2.toNat ≤ maxTime)) .database
  modify fun t => { t with
    usage := {
      modelRequests := usage.modelRequests + delta.modelRequests
      inputTokens := usage.inputTokens + delta.inputTokens
      outputTokens := usage.outputTokens + delta.outputTokens
      cachedTokens := usage.cachedTokens + delta.cachedTokens
      aiFallbacks := usage.aiFallbacks + delta.aiFallbacks
      localResolutions := usage.localResolutions + delta.localResolutions
      responseCacheHits := usage.responseCacheHits + delta.responseCacheHits
      clarifications := usage.clarifications + delta.clarifications
      failedProviderCalls := usage.failedProviderCalls + delta.failedProviderCalls
      estimatedTokensAvoided := usage.estimatedTokensAvoided + delta.estimatedTokensAvoided } }

/-- `ORDER BY created_at_ms DESC, id DESC`. -/
def newestFirst (events : List IntentUsageEvent) : List IntentUsageEvent :=
  (orderBy (fun event : IntentUsageEvent => toLex (event.createdAtMs, event.id.asStr))
    events).reverse

/-- A usage event is added; events past the retention, and the oldest of its lane past the limit,
are deleted. -/
def recordIntentUsage (event : IntentUsageEvent) : Act InteractionTables StorageError Unit := do
  require (!isBlank event.intent && decide (event.intent.utf8ByteSize ≤ 128)
      && !isBlank event.contextClass && decide (event.contextClass.utf8ByteSize ≤ 128))
    (.invalidInteraction "intent usage event is outside accepted bounds")
  transaction do
    let rows ← gets InteractionTables.intentUsageEvents
    require (lengthWithin event.intent 128 && lengthWithin event.entityId.asStr 128
      && lengthWithin event.contextClass 128) .database
    let rows ← orThrow .database (insertRow IntentUsageEvent.id event rows)
    let cutoff := saturatingSub event.createdAtMs defaultRetentionMs
    let kept := rows.filter fun row => decide (cutoff ≤ row.createdAtMs)
    let lane := kept.filter fun row =>
      row.intent == event.intent && row.contextClass == event.contextClass
    let surplus := (newestFirst lane).drop defaultMaxEvents
    modify fun t => { t with
      intentUsageEvents := kept.filter fun row => !surplus.any fun old => old.id == row.id }

/-- `recent_intent_usage`: the newest uses, at most as many as asked for. -/
def recentIntentUsage (t : InteractionTables) (intent contextClass : String) (sinceMs : Int)
    (limit : Nat) : List IntentUsageEvent :=
  (newestFirst (t.intentUsageEvents.filter fun row =>
    row.intent == intent && row.contextClass == contextClass
      && decide (sinceMs ≤ row.createdAtMs))).take (min limit 512)

/-- A usage event within the bounds is refused only under an identifier that is in use. -/
theorem recordIntentUsage_ok {event : IntentUsageEvent} {t : InteractionTables}
    (hintent : event.intent = "open_application") (hclass : event.contextClass = "application")
    (hnew : ∀ row ∈ t.intentUsageEvents, row.id ≠ event.id) :
    (recordIntentUsage event t).1 = .ok () := by
  have htexts : (!isBlank event.intent && decide (event.intent.utf8ByteSize ≤ 128)
      && !isBlank event.contextClass && decide (event.contextClass.utf8ByteSize ≤ 128)) = true := by
    rw [hintent, hclass]
    decide
  have hcolumns : (lengthWithin event.intent 128 && lengthWithin event.entityId.asStr 128
      && lengthWithin event.contextClass 128) = true := by
    rw [hintent, hclass, lengthWithin_entityId]
    decide
  have hinsert := (insertRow_eq_some_iff IntentUsageEvent.id event t.intentUsageEvents _).mpr
    ⟨hnew, rfl⟩
  have hpost : Post (recordIntentUsage event) t fun r _ => r = .ok () := by
    rw [recordIntentUsage, post_bind, post_require, htexts]
    refine ⟨fun _ => ?_, fun h => nomatch h⟩
    rw [next_ok, post_transaction, post_bind, post_gets, next_ok, post_bind, post_require, hcolumns]
    refine ⟨fun _ => ?_, fun h => nomatch h⟩
    rw [next_ok, hinsert]
    rfl
  exact hpost

/-- `record_correction`. -/
def recordCorrection (item : Correction) : Act InteractionTables StorageError Unit := do
  require (lengthWithin item.correctionSummary 2048) .database
  let rows ← gets InteractionTables.corrections
  let rows ← orThrow .database (insertRow Correction.id item rows)
  modify fun t => { t with corrections := rows }

end Halquen.Storage.Interaction
