import Halquen.Domain.Gateway
import Halquen.Storage.Agents
import Halquen.Storage.Interaction

/-!
# Response cache

Answers of a provider that may be used again. A candidate is stored under its normalized request
and context key, where it replaces what was there; feedback changes its confidence and whether it
may be used again; a lookup returns an entry that may be used again, of sufficient confidence and
still valid.
-/

set_option autoImplicit false

namespace Halquen.Storage.ResponseCache

open Halquen.Domain.Ids Halquen.Domain.Security Halquen.Domain.Gateway
open Halquen.Library.Action Halquen.Library.Action.Act Halquen.Library.Sql Halquen.Library.Listing
open Halquen.Storage.Agents Halquen.Storage.Labels Halquen.Storage.Grants
open Halquen.Storage.Interaction

/-- A row of `response_cache`. A counter whose sum leaves the range of 64 bits becomes a number that
the row reader rejects; here it is an integer out of the range of the reader. -/
structure CacheRow where
  id : CacheEntryId
  normalizedRequest : String
  response : String
  contextKey : String
  confidencePermille : Int
  priorityPermille : Int
  trust : TrustClass
  validUntilMs : Option Int
  reusable : Bool
  createdAtMs : Int
  lastUsedAtMs : Option Int
  usageCount : Int
  successCount : Int
  correctionCount : Int
  originalProviderId : Option ProviderId
  originalModelId : Option ModelId
  estimatedTokensAvoided : Int
  deriving DecidableEq

/-- The cache, and the two usage counters that a hit changes. -/
structure CacheTables where
  responseCache : List CacheRow
  responseCacheHits : Int
  estimatedTokensAvoided : Int
  deriving DecidableEq

/-- The row of a response. -/
def CacheRow.ofEntry (entry : CachedResponse) : CacheRow where
  id := entry.id
  normalizedRequest := entry.normalizedRequest
  response := entry.response
  contextKey := entry.contextKey
  confidencePermille := entry.confidencePermille.toNat
  priorityPermille := entry.priorityPermille.toNat
  trust := entry.trust
  validUntilMs := entry.validUntilMs
  reusable := entry.reusable
  createdAtMs := entry.createdAtMs
  lastUsedAtMs := entry.lastUsedAtMs
  usageCount := entry.usageCount.toNat
  successCount := entry.successCount.toNat
  correctionCount := entry.correctionCount.toNat
  originalProviderId := entry.originalProviderId
  originalModelId := entry.originalModelId
  estimatedTokensAvoided := entry.estimatedTokensAvoided.toNat

/-- A column of 16-bit unsigned integers. -/
def parseU16 (value : Int) : Option UInt16 :=
  if 0 ≤ value ∧ value < 2 ^ 16 then some (UInt16.ofNat value.toNat) else none

/-- `row_u64`: the column is read as a signed integer first. -/
def rowU64 (value : Int) : Option UInt64 :=
  if 0 ≤ value ∧ value < 2 ^ 63 then some (UInt64.ofNat value.toNat) else none

/-- `cached_response_from_row`. -/
def cachedResponseFromRow (row : CacheRow) : Except StorageError CachedResponse :=
  orError .database do
    let confidencePermille ← parseU16 row.confidencePermille
    let priorityPermille ← parseU16 row.priorityPermille
    let usageCount ← rowU64 row.usageCount
    let successCount ← rowU64 row.successCount
    let correctionCount ← rowU64 row.correctionCount
    let estimatedTokensAvoided ← rowU64 row.estimatedTokensAvoided
    return {
      id := row.id
      normalizedRequest := row.normalizedRequest
      response := row.response
      contextKey := row.contextKey
      confidencePermille, priorityPermille
      trust := row.trust
      validUntilMs := row.validUntilMs
      reusable := row.reusable
      createdAtMs := row.createdAtMs
      lastUsedAtMs := row.lastUsedAtMs
      usageCount, successCount, correctionCount
      originalProviderId := row.originalProviderId
      originalModelId := row.originalModelId
      estimatedTokensAvoided }

/-- `UNIQUE(normalized_request, context_key)`. -/
def CacheRow.slot (row : CacheRow) : String × String := (row.normalizedRequest, row.contextKey)

/-- Condition of the lookup. -/
def reusableFor (normalizedRequest contextKey : String) (nowMs : Int) (row : CacheRow) : Truth :=
  (eq (some row.normalizedRequest) (some normalizedRequest)).and
    ((eq (some row.contextKey) (some contextKey)).and
      ((eq (some row.reusable) (some true)).and
        ((ge (some row.confidencePermille) (some 800)).and
          ((isNull row.validUntilMs).or (ge row.validUntilMs (some nowMs))))))

/-- `cached_response`: the stored response of a request, if it may be reused. -/
def cachedResponse (rows : List CacheRow) (normalizedRequest contextKey : String) (nowMs : Int) :
    Except StorageError (Option CachedResponse) :=
  match (select (reusableFor normalizedRequest contextKey nowMs) rows).head? with
  | none => .ok none
  | some row => (cachedResponseFromRow row).map some

/-- Column constraints of the schema. -/
def CacheRow.checks (row : CacheRow) : Bool :=
  lengthWithin row.normalizedRequest 4096 && lengthWithin row.response 65536
    && lengthWithin row.contextKey 512
    && between 0 1000 row.confidencePermille && between 0 1000 row.priorityPermille

/-- `INSERT ... ON CONFLICT(normalized_request, context_key) DO UPDATE`: every column is replaced,
the identifier with them. An identifier that another row carries is a conflict of its own. -/
def placeRow (row : CacheRow) (rows : List CacheRow) : Option (List CacheRow) :=
  if rows.any fun old => old.slot != row.slot && old.id == row.id then none
  else some (upsertRow CacheRow.slot row (fun _ => row) rows)

/-- `referenced` is the outcome of the foreign keys to providers and models. -/
def storeResponseCandidate (referenced : Bool) (entry : CachedResponse) :
    Act CacheTables StorageError Unit := do
  require (entry.normalizedRequest != "" && decide (entry.normalizedRequest.utf8ByteSize ≤ 4096)
      && entry.response != "" && decide (entry.response.utf8ByteSize ≤ 65536)
      && entry.contextKey != "" && decide (entry.contextKey.utf8ByteSize ≤ 512)
      && decide (entry.confidencePermille ≤ 1000) && decide (entry.priorityPermille ≤ 1000))
    (.invalidInteraction "response cache candidate is outside accepted bounds")
  require ([entry.usageCount, entry.successCount, entry.correctionCount,
      entry.estimatedTokensAvoided].all fitsColumn)
    (.invalidInteraction "numeric value exceeds SQLite integer range")
  let row := CacheRow.ofEntry entry
  require (row.checks && referenced) .database
  let rows ← gets CacheTables.responseCache
  let rows ← orThrow .database (placeRow row rows)
  modify fun t => { t with responseCache := rows }

/-- `WHERE id = ?`. -/
def withId (id : CacheEntryId) (row : CacheRow) : Truth := eq (some row.id) (some id)

/-- `record_cache_hit`: the use is counted. -/
def recordCacheHit (id : CacheEntryId) (nowMs : Int) (estimatedTokensAvoided : UInt64) :
    Act CacheTables StorageError Unit := do
  require (fitsColumn estimatedTokensAvoided)
    (.invalidInteraction "numeric value exceeds SQLite integer range")
  transaction do
    let rows ← gets CacheTables.responseCache
    modify fun t => { t with
      responseCache := updateRows (withId id) (fun row => { row with
        lastUsedAtMs := some nowMs
        usageCount := row.usageCount + 1
        estimatedTokensAvoided :=
          row.estimatedTokensAvoided + estimatedTokensAvoided.toNat }) rows }
    require (changes (withId id) rows == 1) (.invalidInteraction "cache entry was not found")
    modify fun t => { t with
      responseCacheHits := t.responseCacheHits + 1
      estimatedTokensAvoided := t.estimatedTokensAvoided + estimatedTokensAvoided.toNat }

/-- What feedback changes in an entry. -/
structure FeedbackEffect where
  confidenceDelta : Int
  priorityDelta : Int
  successDelta : Int
  correctionDelta : Int
  reusable : Option Bool

/-- What the user's word changes. -/
def feedbackEffect : ResponseFeedback → FeedbackEffect
  | .useful => ⟨50, 20, 1, 0, none⟩
  | .wrong => ⟨-500, -200, 0, 1, some false⟩
  | .doNotRemember => ⟨0, 0, 0, 0, some false⟩
  | .alwaysUse => ⟨500, 300, 1, 0, some true⟩
  | .prefer => ⟨100, 150, 1, 0, none⟩

/-- `min(1000, max(0, ...))`. -/
def clampPermille (value : Int) : Int := min 1000 (max 0 value)

/-- The row after it. -/
def CacheRow.feedback (effect : FeedbackEffect) (row : CacheRow) : CacheRow :=
  { row with
    confidencePermille := clampPermille (row.confidencePermille + effect.confidenceDelta)
    priorityPermille := clampPermille (row.priorityPermille + effect.priorityDelta)
    successCount := row.successCount + effect.successDelta
    correctionCount := row.correctionCount + effect.correctionDelta
    reusable := effect.reusable.getD row.reusable }

/-- `apply_response_feedback`. -/
def applyResponseFeedback (id : CacheEntryId) (feedback : ResponseFeedback) :
    Act CacheTables StorageError Unit := do
  let rows ← gets CacheTables.responseCache
  modify fun t => { t with
    responseCache := updateRows (withId id) (CacheRow.feedback (feedbackEffect feedback)) rows }
  require (changes (withId id) rows == 1) (.invalidInteraction "cache entry was not found")

end Halquen.Storage.ResponseCache
