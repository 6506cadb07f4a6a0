import Halquen.Domain.Records
import Halquen.Library.Run
import Halquen.Storage.Applications
import Halquen.Storage.Providers
import Halquen.Storage.ResponseCache
import Halquen.Storage.Sqlite

/-!
# Operations of the database

All tables that the storage methods write, and every method that writes one of them as an operation
on all tables. The operations are grouped by the part of the storage that they belong to. A call is
an operation together with the decision of the database whether it carries it out: where it does
not (a full disk, a lock that is not granted), whatever the statement at which it gives up, the
statements before it are rolled back.
-/

set_option autoImplicit false

namespace Halquen.Storage.Operations

open Halquen.Domain.Ids Halquen.Domain.Capability Halquen.Domain.Security Halquen.Domain.Agent
open Halquen.Domain.Application Halquen.Domain.Gateway Halquen.Domain.Interaction
open Halquen.Domain.Records Halquen.Memory.Semantic Halquen.Audit.Receipt
open Halquen.Library.Action Halquen.Library.Action.Act Halquen.Library.Run Halquen.Library.Sql
open Halquen.Storage.Agents Halquen.Storage.Applications Halquen.Storage.Audit
open Halquen.Storage.Grants Halquen.Storage.Interaction Halquen.Storage.Labels
open Halquen.Storage.Memory Halquen.Storage.Providers Halquen.Storage.ResponseCache
open Halquen.Storage.Sessions Halquen.Storage.Sqlite

/-! ## Tables -/

/-- Row of a model. The tasks are rows of a table of their own, which are written together with the
model. -/
abbrev ModelRow := AiModel

/-- The whole database. -/
structure Tables where
  database : Database
  settings : ApplicationSettings
  settingsUpdatedAtMs : Int
  providers : List ProviderRow
  models : List ModelRow
  responseCache : List CacheRow
  applications : List ApplicationRow
  entities : List Entity
  unknownCases : List UnknownCase
  aiProposals : List AiProposal

/-- A new database. -/
def Tables.empty : Tables where
  database := .empty
  settings := .default
  settingsUpdatedAtMs := 0
  providers := []
  models := []
  responseCache := []
  applications := []
  entities := []
  unknownCases := []
  aiProposals := []

/-- The audit log. -/
def Tables.audit (t : Tables) : AuditTables := t.database.audit

section

variable {α : Type}

/-- An operation on the tables of the service. -/
def onDatabase : Act Database StorageError α → Act Tables StorageError α :=
  within Tables.database fun t database => { t with database := database }

@[simp]
theorem post_onDatabase {m : Act Database StorageError α} {t : Tables}
    {Q : Except StorageError α → Tables → Prop} :
    Post (onDatabase m) t Q ↔ Post m t.database fun r d => Q r { t with database := d } := Iff.rfl

/-- The counters of the cache are two columns of the usage row. -/
def cacheTables (t : Tables) : CacheTables where
  responseCache := t.responseCache
  responseCacheHits := t.database.interaction.usage.responseCacheHits.toNat
  estimatedTokensAvoided := t.database.interaction.usage.estimatedTokensAvoided.toNat

/-- An operation on stored responses. -/
def onCache : Act CacheTables StorageError α → Act Tables StorageError α :=
  within cacheTables fun t cache => { t with
    responseCache := cache.responseCache
    database := { t.database with
      interaction := { t.database.interaction with
        usage := { t.database.interaction.usage with
          responseCacheHits := .ofNat cache.responseCacheHits.toNat
          estimatedTokensAvoided := .ofNat cache.estimatedTokensAvoided.toNat } } } }

/-- Statement on the rows of one table that returns them unchanged where it fails. -/
def onRows {ρ : Type} (get : Tables → List ρ) (set : Tables → List ρ → Tables)
    (f : List ρ → Except StorageError (List ρ)) : Act Tables StorageError Unit :=
  within get set do
    let rows ← reads f
    modify fun _ => rows

/-- Statement that reports whether it has found its row. -/
def onFound {σ ρ : Type} (get : σ → List ρ) (set : σ → List ρ → σ)
    (f : List ρ → Bool × List ρ) : Act σ StorageError Unit :=
  within get set (modify fun rows => (f rows).2)

/-- Only the change counts. -/
def discardValue (m : Act Tables StorageError α) : Act Tables StorageError Unit := do
  let _ ← m
  return ()

end

/-! ## Frames -/

/-- The states have the same part. -/
def Same {σ τ : Type} (part : σ → τ) (s s' : σ) : Prop := part s' = part s

instance Same.isPreorder {σ τ : Type} (part : σ → τ) : IsPreorder σ (Same part) where
  refl _ := rfl
  trans _ _ _ h h' := h'.trans h

theorem keeps_discardValue {α : Type} {R : Tables → Tables → Prop} [IsPreorder Tables R]
    {m : Act Tables StorageError α} (h : Keeps R m) : Keeps R (discardValue m) :=
  h.bind fun _ => keeps_pure ()

/-! ## Interaction -/

/-- What the user is told of settings that are refused. -/
def settingsErrorMessage : SettingsValidationError → String
  | .invalidLanguage => "language must contain between 1 and 32 characters"
  | .personalInstructionsTooLong => "personal instructions exceed 8000 bytes"
  | .invalidModelCallBudget => "model call budget must be between 0 and 3"
  | .invalidContextBudget => "context token budget must be between 256 and 131072"
  | .invalidOutputBudget => "output token budget must be between 64 and 16384"
  | .invalidRetention => "retention must be between 1 and 3650 days"
  | .invalidLogLimit => "log storage limit must be between 1 and 1024 MiB"

/-- The columns have the bounds of the validation; a NUL shortens what `length` sees. -/
def updateApplicationSettings (settings : ApplicationSettings) (nowMs : Int) :
    Act Tables StorageError Unit := do
  ofExcept (settings.validate.mapError fun e => .invalidInteraction (settingsErrorMessage e))
  require (lengthWithin settings.language 32) .database
  modify fun t => { t with settings := settings, settingsUpdatedAtMs := nowMs }

/-- Constraints of the model and task tables, the unique indices and the foreign key among them. -/
def modelChecks (model : AiModel) (t : Tables) : Bool :=
  lengthWithin model.displayName 128 && lengthWithin model.providerModelId 256
    && model.contextLimit.all (fun limit => decide (256 ≤ limit ∧ limit ≤ 1048576))
    && decide model.taskEligibility.Nodup
    && t.providers.any (fun provider => provider.id == model.providerId.asStr)
    && t.models.all fun other => other.id == model.id || other.providerId != model.providerId
      || other.providerModelId != model.providerModelId

/-- A default model takes that place from the other models of its provider. -/
def upsertModel (model : AiModel) : Act Tables StorageError Unit := do
  require (!isBlank model.displayName && decide (model.displayName.utf8ByteSize ≤ 128)
      && !isBlank model.providerModelId && decide (model.providerModelId.utf8ByteSize ≤ 256)
      && !model.taskEligibility.isEmpty && between (-1000) 1000 model.priority.toInt)
    (.invalidInteraction "model metadata is outside accepted bounds")
  let t ← gets fun t => t
  require (modelChecks model t) .database
  let others := if model.isDefault then
      updateRows (fun row : ModelRow =>
          (eq (some row.providerId) (some model.providerId)).and
            (ne (some row.id) (some model.id)))
        (fun row => { row with isDefault := false }) t.models
    else t.models
  modify fun t => { t with models := upsertRow AiModel.id model (fun _ => model) others }

/-- The models of a provider are deleted with it, and whatever names the provider or one of these
models names none afterwards. -/
def deleteProvider (id : ProviderId) : Act Tables StorageError Unit := do
  let t ← gets fun t => t
  let lost := t.models.filter fun model => model.providerId == id
  let keptProvider := fun named : Option ProviderId => named.filter fun other => other != id
  let keptModel := fun named : Option ModelId =>
    named.filter fun other => lost.all fun model => model.id != other
  let found := (removeProvider t.providers id).1
  modify fun t => if !found then t else { t with
    providers := (removeProvider t.providers id).2
    models := t.models.filter fun model => model.providerId != id
    responseCache := t.responseCache.map fun row => { row with
      originalProviderId := keptProvider row.originalProviderId
      originalModelId := keptModel row.originalModelId }
    database := { t.database with
      interaction := { t.database.interaction with
        chatMessages := t.database.interaction.chatMessages.map fun message => { message with
          providerId := keptProvider message.providerId
          modelId := keptModel message.modelId } } } }

/-- Foreign keys to a provider and a model. -/
def references (t : Tables) (providerId : Option ProviderId) (modelId : Option ModelId) : Bool :=
  providerId.all (fun id => t.providers.any fun provider => provider.id == id.asStr)
    && modelId.all fun id => t.models.any fun model => model.id == id

/-- Methods on settings, providers, models, conversations, the response cache and the usage. -/
inductive InteractionOperation where
  | updateApplicationSettings (settings : ApplicationSettings) (nowMs : Int)
  | upsertProvider (provider : Provider)
  | removeProvider (id : ProviderId)
  | upsertModel (model : AiModel)
  | ensureChatSession (requested : Option ChatSessionId) (title : String) (nowMs : Int)
      (fresh : ChatSessionId)
  | appendChatMessage (message : ChatMessage)
  | appendActivity (event : ActivityEvent)
  | storeResponseCandidate (entry : CachedResponse)
  | recordCacheHit (id : CacheEntryId) (nowMs : Int) (estimatedTokensAvoided : UInt64)
  | applyResponseFeedback (id : CacheEntryId) (feedback : ResponseFeedback)
  | addUsage (delta : UsageStats)
  | setMemoryState (id : MemoryId) (pinned disabled : Option Bool)
      (priorityPermille : Option Nat)

/-- The operations of `interaction.rs`. -/
def InteractionOperation.perform : InteractionOperation → Act Tables StorageError Unit
  | .updateApplicationSettings settings nowMs =>
      Operations.updateApplicationSettings settings nowMs
  | .upsertProvider provider =>
      onRows Tables.providers (fun t rows => { t with providers := rows })
        fun rows => Providers.upsertProvider rows provider
  | .removeProvider id => deleteProvider id
  | .upsertModel model => Operations.upsertModel model
  | .ensureChatSession requested title nowMs fresh =>
      discardValue (onDatabase (onInteraction
        (Interaction.ensureChatSession requested title nowMs fresh)))
  | .appendChatMessage message =>
      transaction do
        let t ← gets fun t => t
        onDatabase (onInteraction (Interaction.appendChatMessage message))
        require (references t message.providerId message.modelId) .database
  | .appendActivity event => onDatabase (onInteraction (Interaction.appendActivity event))
  | .storeResponseCandidate entry => do
      let t ← gets fun t => t
      let referenced := references t entry.originalProviderId entry.originalModelId
      onCache (ResponseCache.storeResponseCandidate referenced entry)
  | .recordCacheHit id nowMs estimatedTokensAvoided =>
      onCache (ResponseCache.recordCacheHit id nowMs estimatedTokensAvoided)
  | .applyResponseFeedback id feedback =>
      onCache (ResponseCache.applyResponseFeedback id feedback)
  | .addUsage delta => onDatabase (onInteraction (Interaction.addUsage delta))
  | .setMemoryState id pinned disabled priorityPermille =>
      discardValue (onDatabase (onMemory
        (Memory.setMemoryState id pinned disabled priorityPermille)))

/-! ## Applications and sessions -/

/-- The operations of `runtime.rs` that write. -/
inductive RuntimeOperation where
  | upsertRegisteredApplication (application : RegisteredApplication)
  | removeRegisteredApplication (entityId : EntityId)
  | beginDaemonSession (session : DaemonSession)
  | finishDaemonSession (id : DaemonSessionId) (endedAtMs : Int)
  | beginAgentSession (session : AgentSession)
  | finishAgentSession (id : AgentSessionId) (status : AgentSessionStatus) (endedAtMs : Int)

/-- What they do. -/
def RuntimeOperation.perform (codec : ArgumentsCodec) :
    RuntimeOperation → Act Tables StorageError Unit
  | .upsertRegisteredApplication application =>
      onRows Tables.applications (fun t rows => { t with applications := rows })
        fun rows => Applications.upsertRegisteredApplication codec rows application
  | .removeRegisteredApplication entityId =>
      onFound Tables.applications (fun t rows => { t with applications := rows })
        fun rows => Applications.removeRegisteredApplication rows entityId
  | .beginDaemonSession session =>
      onDatabase (onSessions (Sessions.beginDaemonSession session))
  | .finishDaemonSession id endedAtMs =>
      discardValue (onDatabase (onSessions (Sessions.finishDaemonSession id endedAtMs)))
  | .beginAgentSession session => onDatabase (onSessions (Sessions.beginAgentSession session))
  | .finishAgentSession id status endedAtMs =>
      discardValue (onDatabase (onSessions (Sessions.finishAgentSession id status endedAtMs)))

/-! ## Security -/

/-- The operations of `security.rs` that write. -/
inductive SecurityOperation where
  | updateSecurityProfile (profile : SecurityProfile) (nowMs : Int)
  | upsertPermissionGrant (grant : PermissionGrant)
  | revokePermission (id : PermissionId) (nowMs : Int)
  | consumePermission (id : PermissionId)
  | claimPermissionForProposal (proposal : ActionProposal)
      (session : Option PermissionSessionScope) (agentId : Option AgentId) (nowMs : Int)
  | upsertResourceLabel (label : ResourceLabel)
  | removeResourceLabel (id : ResourceLabelId)
  | recordIntentUsage (event : IntentUsageEvent)
  | upsertAgent (agent : AgentConfiguration)
  | removeAgent (id : AgentId)

/-- What they do. -/
def SecurityOperation.perform (serde : ScopeCodec) (codec : ArgumentsCodec) :
    SecurityOperation → Act Tables StorageError Unit
  | .updateSecurityProfile profile nowMs =>
      onDatabase (Sqlite.updateSecurityProfile profile nowMs)
  | .upsertPermissionGrant grant => onDatabase (saveGrant serde grant)
  | .revokePermission id nowMs =>
      onDatabase (onSessions (onFound SessionTables.grants
        (fun t grants => { t with grants := grants })
        fun rows => Grants.revokePermission rows id nowMs))
  | .consumePermission id =>
      onDatabase (onSessions (onFound SessionTables.grants
        (fun t grants => { t with grants := grants })
        fun rows => Grants.consumePermission rows id))
  | .claimPermissionForProposal proposal session agentId nowMs =>
      discardValue (onDatabase (onGrants fun rows =>
        Grants.claimPermissionForProposal serde rows proposal session agentId nowMs))
  | .upsertResourceLabel label => onDatabase (saveLabel label)
  | .removeResourceLabel id => discardValue (onDatabase (deleteLabel id))
  | .recordIntentUsage event => onDatabase (onInteraction (Interaction.recordIntentUsage event))
  | .upsertAgent agent => onDatabase (saveAgent codec agent)
  | .removeAgent id => discardValue (onDatabase (deleteAgent id))

/-! ## Queues -/

/-- What the table demands of an entity. -/
def entityChecks (entity : Entity) : Bool :=
  lengthWithin entity.canonicalName 512
    && entity.validUntilMs.all fun «until» => entity.validFromMs.all fun «from» =>
      decide («from» ≤ «until»)

/-- Plain insertions. The JSON columns of a proposal are valid because they were serialised. -/
inductive QueueOperation where
  | insertEntity (entity : Entity)
  | enqueueUnknown (item : UnknownCase)
  | recordCorrection (item : Correction)
  | storeAiProposal (proposal : AiProposal)

/-- An insertion under the constraints of the table. -/
def insertChecked {ρ κ : Type} [DecidableEq κ] (key : ρ → κ) (checks : Bool) (row : ρ)
    (rows : List ρ) : Except StorageError (List ρ) :=
  if checks then ((insertRow key row rows).map .ok).getD (.error .database) else .error .database

/-- The operations on entities and on the queues. -/
def QueueOperation.perform : QueueOperation → Act Tables StorageError Unit
  | .insertEntity entity =>
      onRows Tables.entities (fun t rows => { t with entities := rows })
        (insertChecked Entity.id (entityChecks entity) entity)
  | .enqueueUnknown item =>
      onRows Tables.unknownCases (fun t rows => { t with unknownCases := rows })
        (insertChecked UnknownCase.id (lengthWithin item.requestSummary 2048) item)
  | .recordCorrection item => onDatabase (onInteraction (Interaction.recordCorrection item))
  | .storeAiProposal proposal =>
      onRows Tables.aiProposals (fun t rows => { t with aiProposals := rows })
        (insertChecked AiProposal.id (lengthWithin proposal.providerModel 256) proposal)

/-! ## All operations -/

/-- All operations that write. -/
inductive Operation where
  | interaction (operation : InteractionOperation)
  | runtime (operation : RuntimeOperation)
  | security (operation : SecurityOperation)
  | queue (operation : QueueOperation)
  | appendAudit (record : AuditRecord)
  | recordExecution (receipt : ExecutionReceipt) (auditRecords : List AuditRecord)
  | persistMemoryRevision (fails : Statement → Bool) (auditId : AuditId) (item : MemoryItem)
      (revision : MemoryRevision) (evidence : List Evidence)

/-- Audit records that an operation adds where it succeeds. -/
def Operation.auditRecords : Operation → List AuditRecord
  | .appendAudit record => [record]
  | .recordExecution _ auditRecords => auditRecords
  | .persistMemoryRevision _ auditId item revision _ => [revisionRecord auditId item revision]
  | .interaction _ | .runtime _ | .security _ | .queue _ => []

/-- What they do. -/
def Operation.perform (serde : ScopeCodec) (codec : ArgumentsCodec) :
    Operation → Act Tables StorageError Unit
  | .interaction operation => operation.perform
  | .runtime operation => operation.perform codec
  | .security operation => operation.perform serde codec
  | .queue operation => operation.perform
  | .appendAudit record => onDatabase (onAudit (Audit.appendAudit record))
  | .recordExecution receipt auditRecords =>
      onDatabase (onAudit (Audit.recordExecution receipt auditRecords))
  | .persistMemoryRevision fails auditId item revision evidence =>
      onDatabase (onMemoryStore
        (Memory.persistMemoryRevision fails auditId item revision evidence))

/-- An operation that the database may refuse. -/
structure Call where
  operation : Operation
  /-- The database does not carry the operation out. -/
  refused : Bool

/-- A refused call changes nothing. -/
def Call.perform (serde : ScopeCodec) (codec : ArgumentsCodec) (call : Call) :
    Act Tables StorageError Unit := do
  require (!call.refused) .database
  call.operation.perform serde codec

/-- Tables that calls, each of which succeeds or fails, make of a new database. -/
def reached (serde : ScopeCodec) (codec : ArgumentsCodec) (calls : List Call) : Tables :=
  run (fun t call => (call.perform serde codec t).2) .empty calls

end Halquen.Storage.Operations
