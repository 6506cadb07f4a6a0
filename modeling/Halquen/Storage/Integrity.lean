import Halquen.Library.Constraints
import Halquen.Storage.Conversations

/-!
# Integrity of the tables of the gateway

Providers, models, conversations, activity and the response cache name each other. In every database
that operations reach, each of which succeeds or fails, every name is the name of a row that exists,
keys are unique, a provider has one default model at most, and the settings are valid
(`intact_reached`). With a provider its models go, and whatever has named one of them names it no
longer.
-/

set_option autoImplicit false

namespace Halquen.Storage.Integrity

open Halquen.Domain.Ids Halquen.Domain.Capability Halquen.Domain.Gateway Halquen.Domain.Interaction
open Halquen.Library.Action Halquen.Library.Action.Act Halquen.Library.Constraints
open Halquen.Library.Listing Halquen.Library.Run Halquen.Library.Sql
open Halquen.Storage.Agents Halquen.Storage.Conversations Halquen.Storage.Grants
open Halquen.Storage.Interaction Halquen.Storage.Labels Halquen.Storage.Operations
open Halquen.Storage.Providers Halquen.Storage.ResponseCache Halquen.Storage.Sqlite

/-! ## The invariant -/

/-- The providers that there are. -/
def providerIds (t : Tables) : List String := t.providers.map ProviderRow.id

/-- The models that there are. -/
def modelIds (t : Tables) : List ModelId := t.models.map AiModel.id

/-- The conversations that there are. -/
def sessionIds (t : Tables) : List ChatSessionId :=
  t.database.interaction.chatSessions.map ChatSession.id

/-- The row refers to a secret. -/
def hasCredential (row : ProviderRow) : Bool := row.credentialId.isSome

/-- `UNIQUE(provider_id, provider_model_id)`. -/
def modelName (model : AiModel) : ProviderId × String := (model.providerId, model.providerModelId)

/-- The provider that a model names. -/
def modelOwner (model : AiModel) : Option String := some model.providerId.asStr

/-- The conversation that a message names. -/
def messageSession (message : ChatMessage) : Option ChatSessionId := some message.sessionId

/-- The provider that a message names. -/
def messageProvider (message : ChatMessage) : Option String :=
  message.providerId.map TypedId.asStr

/-- The provider that a stored response names. -/
def cacheProvider (row : CacheRow) : Option String := row.originalProviderId.map TypedId.asStr

/-- What the schema demands of the tables together. -/
structure Intact (t : Tables) : Prop where
  settings : t.settings.validate = .ok ()
  providerKeys : UniqueKey ProviderRow.id t.providers
  modelKeys : UniqueKey AiModel.id t.models
  modelNames : UniqueKey modelName t.models
  /-- Two providers do not share a credential. -/
  credentials : UniqueWhere hasCredential ProviderRow.credentialId t.providers
  /-- A provider has one default model at most. -/
  defaults : UniqueWhere AiModel.isDefault AiModel.providerId t.models
  owners : Refers modelOwner t.models (providerIds t)
  messageSessions : Refers messageSession t.database.interaction.chatMessages (sessionIds t)
  messageProviders : Refers messageProvider t.database.interaction.chatMessages (providerIds t)
  messageModels : Refers ChatMessage.modelId t.database.interaction.chatMessages (modelIds t)
  activitySessions : Refers ActivityEvent.sessionId t.database.interaction.activityEvents
    (sessionIds t)
  cacheProviders : Refers cacheProvider t.responseCache (providerIds t)
  cacheModels : Refers CacheRow.originalModelId t.responseCache (modelIds t)

/-! ## What the invariant reads -/

/-- All that the invariant depends on. -/
structure Shape where
  settings : ApplicationSettings
  providers : List ProviderRow
  models : List ModelRow
  sessions : List ChatSessionId
  messageSessions : List (Option ChatSessionId)
  messageProviders : List (Option String)
  messageModels : List (Option ModelId)
  activitySessions : List (Option ChatSessionId)
  cacheProviders : List (Option String)
  cacheModels : List (Option ModelId)

/-- The part of the tables on which this depends. -/
def shape (t : Tables) : Shape where
  settings := t.settings
  providers := t.providers
  models := t.models
  sessions := sessionIds t
  messageSessions := t.database.interaction.chatMessages.map messageSession
  messageProviders := t.database.interaction.chatMessages.map messageProvider
  messageModels := t.database.interaction.chatMessages.map ChatMessage.modelId
  activitySessions := t.database.interaction.activityEvents.map ActivityEvent.sessionId
  cacheProviders := t.responseCache.map cacheProvider
  cacheModels := t.responseCache.map CacheRow.originalModelId

/-- Integrity depends on the shape alone. -/
theorem Intact.of_shape {t t' : Tables} (h : Intact t) (hsame : Same shape t t') : Intact t' := by
  -- Each part of the invariant is about what the shape shows.
  have hproviders : t'.providers = t.providers := congrArg Shape.providers hsame
  have hmodels : t'.models = t.models := congrArg Shape.models hsame
  have hsessions : sessionIds t' = sessionIds t := congrArg Shape.sessions hsame
  have hproviderIds : providerIds t' = providerIds t :=
    congrArg (List.map ProviderRow.id) hproviders
  have hmodelIds : modelIds t' = modelIds t := congrArg (List.map AiModel.id) hmodels
  have hsettings : t'.settings = t.settings := congrArg Shape.settings hsame
  refine ⟨?_, ?_, ?_, ?_, ?_, ?_, ?_, ?_, ?_, ?_, ?_, ?_, ?_⟩
  · rw [hsettings]
    exact h.settings
  · rw [hproviders]
    exact h.providerKeys
  · rw [hmodels]
    exact h.modelKeys
  · rw [hmodels]
    exact h.modelNames
  · rw [hproviders]
    exact h.credentials
  · rw [hmodels]
    exact h.defaults
  · rw [hmodels, hproviderIds]
    exact h.owners
  · rw [hsessions]
    exact h.messageSessions.congr (congrArg Shape.messageSessions hsame)
  · rw [hproviderIds]
    exact h.messageProviders.congr (congrArg Shape.messageProviders hsame)
  · rw [hmodelIds]
    exact h.messageModels.congr (congrArg Shape.messageModels hsame)
  · rw [hsessions]
    exact h.activitySessions.congr (congrArg Shape.activitySessions hsame)
  · rw [hproviderIds]
    exact h.cacheProviders.congr (congrArg Shape.cacheProviders hsame)
  · rw [hmodelIds]
    exact h.cacheModels.congr (congrArg Shape.cacheModels hsame)

/-! ## Operations that leave it as it is -/

/-- Sessions, messages and activity. -/
def chatPart (t : InteractionTables) :
    List ChatSession × List ChatMessage × List ActivityEvent :=
  (t.chatSessions, t.chatMessages, t.activityEvents)

section

variable {α : Type}

/-- Operations on usage and behaviour leave the shape alone. -/
theorem keepsShape_onInteraction {m : Act InteractionTables StorageError α}
    (h : Keeps (Same chatPart) m) : Keeps (Same shape) (onDatabase (onInteraction m)) := by
  intro t
  have hpart := h t.database.interaction
  simp only [Same, chatPart, Prod.mk.injEq] at hpart
  obtain ⟨hsessions, hmessages, hactivity⟩ := hpart
  change shape { t with database := { t.database with
    interaction := (m t.database.interaction).2 } } = shape t
  simp only [shape, sessionIds, hsessions, hmessages, hactivity]

/-- So do those on the tables of the service, apart from conversations. -/
theorem keepsShape_onDatabase {m : Act Database StorageError α}
    (h : Keeps (Same Database.interaction) m) : Keeps (Same shape) (onDatabase m) := by
  intro t
  have hpart : (m t.database).2.interaction = t.database.interaction := h t.database
  change shape { t with database := (m t.database).2 } = shape t
  simp only [shape, sessionIds, hpart]

end

theorem keepsChat_addUsage (delta : UsageStats) : Keeps (Same chatPart) (addUsage delta) :=
  (keeps_require _ _).bind fun _ => (keeps_gets _).bind fun _ =>
    (keeps_require _ _).bind fun _ => keeps_modify fun _ => rfl

theorem keepsChat_recordIntentUsage (event : IntentUsageEvent) :
    Keeps (Same chatPart) (recordIntentUsage event) :=
  (keeps_require _ _).bind fun _ => Keeps.transaction <| (keeps_gets _).bind fun _ =>
    (keeps_require _ _).bind fun _ => (keeps_orThrow _ _).bind fun _ => keeps_modify fun _ => rfl

theorem keepsChat_recordCorrection (item : Correction) :
    Keeps (Same chatPart) (recordCorrection item) :=
  (keeps_require _ _).bind fun _ => (keeps_gets _).bind fun _ =>
    (keeps_orThrow _ _).bind fun _ => keeps_modify fun _ => rfl

/-- No operation of `runtime.rs` touches the shape. -/
theorem keepsShape_runtime (codec : ArgumentsCodec) (operation : RuntimeOperation) :
    Keeps (Same shape) (operation.perform codec) := by
  cases operation with
  | finishDaemonSession id endedAtMs => exact keeps_discardValue fun _ => rfl
  | finishAgentSession id status endedAtMs => exact keeps_discardValue fun _ => rfl
  | _ => exact fun _ => rfl

/-- No operation of `security.rs` touches the shape. -/
theorem keepsShape_security (serde : ScopeCodec) (codec : ArgumentsCodec)
    (operation : SecurityOperation) : Keeps (Same shape) (operation.perform serde codec) := by
  cases operation with
  | claimPermissionForProposal proposal session agentId nowMs =>
      exact keeps_discardValue fun _ => rfl
  | upsertResourceLabel label =>
      exact keepsShape_onDatabase <| (keeps_gets Database.labels).bind fun _ =>
        (keeps_ofExcept _).bind fun _ => keeps_modify fun _ => rfl
  | removeResourceLabel id => exact keeps_discardValue fun _ => rfl
  | recordIntentUsage event => exact keepsShape_onInteraction (keepsChat_recordIntentUsage event)
  | upsertAgent agent =>
      exact keepsShape_onDatabase <| (keeps_gets Database.agents).bind fun _ =>
        (keeps_ofExcept _).bind fun _ => keeps_modify fun _ => rfl
  | removeAgent id => exact keeps_discardValue fun _ => rfl
  | _ => exact fun _ => rfl

/-- No operation on the queues touches the shape. -/
theorem keepsShape_queue (operation : QueueOperation) :
    Keeps (Same shape) operation.perform := by
  cases operation with
  | recordCorrection item => exact keepsShape_onInteraction (keepsChat_recordCorrection item)
  | _ => exact fun _ => rfl

/-- What the rows of the cache name. -/
def cacheNames (t : CacheTables) : List (Option String) × List (Option ModelId) :=
  (t.responseCache.map cacheProvider, t.responseCache.map CacheRow.originalModelId)

theorem keepsShape_onCache {α : Type} {m : Act CacheTables StorageError α}
    (h : ∀ t, Post m t fun _ t' => cacheNames t' = cacheNames t) :
    Keeps (Same shape) (onCache m) := by
  intro t
  have hnames := h (cacheTables t)
  simp only [Post, cacheNames, Prod.mk.injEq] at hnames
  obtain ⟨hproviders, hmodels⟩ := hnames
  simp only [Same, shape, onCache, within, sessionIds] at hproviders hmodels ⊢
  rw [hproviders, hmodels]
  rfl

/-- Feedback and use leave the names in stored responses alone. -/
theorem cacheNames_updateRows (t : CacheTables) (cond : CacheRow → Truth)
    (set : CacheRow → CacheRow)
    (hset : ∀ row, (set row).originalProviderId = row.originalProviderId ∧
      (set row).originalModelId = row.originalModelId) (hits avoided : Int) :
    cacheNames ⟨updateRows cond set t.responseCache, hits, avoided⟩ = cacheNames t := by
  have hprovider : ∀ row, cacheProvider (set row) = cacheProvider row :=
    fun row => congrArg (Option.map TypedId.asStr) (hset row).1
  unfold cacheNames
  rw [map_updateRows cond hprovider, map_updateRows cond fun row => (hset row).2]

theorem cacheNames_recordCacheHit (id : CacheEntryId) (nowMs : Int)
    (estimatedTokensAvoided : UInt64) (t : CacheTables) :
    Post (recordCacheHit id nowMs estimatedTokensAvoided) t fun _ t' =>
      cacheNames t' = cacheNames t := by
  simp only [recordCacheHit, post_bind, post_require, next_ok, next_error, post_transaction,
    post_gets, post_modify]
  refine ⟨fun _ => ⟨fun _ => ?_, fun _ => trivial⟩, fun _ => trivial⟩
  refine cacheNames_updateRows t _ _ ?_ _ _
  exact fun row => ⟨rfl, rfl⟩

theorem cacheNames_applyResponseFeedback (id : CacheEntryId) (feedback : ResponseFeedback)
    (t : CacheTables) :
    Post (applyResponseFeedback id feedback) t fun _ t' => cacheNames t' = cacheNames t := by
  simp only [applyResponseFeedback, post_bind, post_gets, next_ok, post_modify, post_require]
  have hjudged := cacheNames_updateRows t (withId id) (CacheRow.feedback (feedbackEffect feedback))
    (fun _ => ⟨rfl, rfl⟩) t.responseCacheHits t.estimatedTokensAvoided
  exact ⟨fun _ => hjudged, fun _ => hjudged⟩

/-! ## Operations that change it -/

/-- Foreign keys that hold name rows. -/
theorem mem_of_references {t : Tables} {provider : Option ProviderId} {model : Option ModelId}
    (h : references t provider model = true) :
    (∀ text, provider.map TypedId.asStr = some text → text ∈ providerIds t) ∧
      ∀ id, model = some id → id ∈ modelIds t := by
  rw [references, Bool.and_eq_true, Option.all_eq_true, Option.all_eq_true] at h
  obtain ⟨hprovider, hmodel⟩ := h
  constructor
  · intro text htext
    obtain ⟨id, hid, rfl⟩ := Option.map_eq_some_iff.mp htext
    obtain ⟨row, hrow, heq⟩ := List.any_eq_true.mp (hprovider id hid)
    exact List.mem_map.mpr ⟨row, hrow, beq_iff_eq.mp heq⟩
  · intro id hid
    obtain ⟨row, hrow, heq⟩ := List.any_eq_true.mp (hmodel id hid)
    exact List.mem_map.mpr ⟨row, hrow, beq_iff_eq.mp heq⟩

section

variable {t : Tables} (h : Intact t)

include h

/-- Settings are checked before they are written. -/
theorem Intact.updateApplicationSettings (settings : ApplicationSettings) (nowMs : Int) :
    Post (Operations.updateApplicationSettings settings nowMs) t fun _ t' => Intact t' := by
  rw [Operations.updateApplicationSettings, post_bind, post_ofExcept]
  cases hvalid : settings.validate with
  | error e => exact h
  | ok u =>
      dsimp only [Except.mapError]
      rw [next_ok, post_bind, post_require]
      refine ⟨fun _ => ?_, fun _ => h⟩
      exact { h with settings := hvalid }

omit h in
/-- The credential of an upserted provider is not the one of another provider. -/
theorem credential_free {rows rows' : List ProviderRow} {provider : Domain.Gateway.Provider}
    (hrows : upsertProvider rows provider = .ok rows') : ∀ old ∈ rows,
      (old.id == (ProviderRow.ofProvider provider).id || old.credentialId.isNone ||
        old.credentialId != (ProviderRow.ofProvider provider).credentialId) = true := by
  unfold Providers.upsertProvider at hrows
  simp only [except_bind_eq_ok_iff, rejectIf_eq_ok_iff, exists_const] at hrows
  have hchecks := hrows.2.1
  rw [Bool.not_eq_false', Bool.and_eq_true] at hchecks
  exact List.all_eq_true.mp hchecks.2

/-- A provider is added or replaced, under its identifier. -/
theorem Intact.withProviders {rows : List ProviderRow} {provider : Domain.Gateway.Provider}
    (hrows : upsertProvider t.providers provider = .ok rows) :
    Intact { t with providers := rows } := by
  have hmerge : ∀ old : ProviderRow, old.id = (ProviderRow.ofProvider provider).id →
      ((ProviderRow.ofProvider provider).replacedBy old).id =
        (ProviderRow.ofProvider provider).id := fun _ hid => hid
  have hids : providerIds t ⊆ providerIds { t with providers := rows } := by
    unfold providerIds
    rw [upsertProvider_spec hrows]
    exact keys_subset_upsertRow _ _ hmerge t.providers
  refine { h with
    providerKeys := ?_
    credentials := ?_
    owners := h.owners.mono hids
    messageProviders := h.messageProviders.mono hids
    cacheProviders := h.cacheProviders.mono hids }
  · dsimp only
    rw [upsertProvider_spec hrows]
    exact h.providerKeys.upsert hmerge
  · dsimp only
    rw [upsertProvider_spec hrows]
    refine h.credentials.upsert h.providerKeys (fun _ => ⟨rfl, rfl⟩) ?_
    intro _ old hold hid hsome hsame
    -- The upsert has checked that no other row holds this credential.
    have hfree := credential_free hrows old hold
    rw [Bool.or_eq_true, Bool.or_eq_true, beq_iff_eq, bne_iff_ne] at hfree
    rcases hfree with (hsameId | hnone) | hother
    · exact hid hsameId
    · rw [hasCredential, Option.isSome_iff_ne_none] at hsome
      exact hsome (Option.isNone_iff_eq_none.mp hnone)
    · exact hother hsame

/-- A provider is inserted or updated, never renamed. -/
theorem Intact.upsertProvider (provider : Domain.Gateway.Provider) :
    Post (InteractionOperation.upsertProvider provider).perform t fun _ t' => Intact t' := by
  rw [InteractionOperation.perform, onRows, post_within, post_bind, post_reads]
  cases hrows : Providers.upsertProvider t.providers provider with
  | error e => exact h
  | ok rows => exact h.withProviders hrows

/-- A new conversation has a new identifier. -/
theorem Intact.ensureChatSession (requested : Option ChatSessionId) (title : String) (nowMs : Int)
    (fresh : ChatSessionId) :
    Post (InteractionOperation.ensureChatSession requested title nowMs fresh).perform t
      fun _ t' => Intact t' := by
  rw [InteractionOperation.perform, discardValue, post_bind, post_onDatabase, post_onInteraction]
  apply (ensureChatSession_spec requested title nowMs fresh t.database.interaction).mono
  intro r rows hr
  cases r with
  | error e =>
      rw [next_error, show rows = t.database.interaction from hr]
      exact h
  | ok session =>
      rw [next_ok, post_pure]
      rcases hr with ⟨-, -, rfl⟩ | ⟨-, -, -, rfl⟩
      · exact h
      · have hsessions : sessionIds t ⊆ sessionIds (withInteraction t { t.database.interaction with
            chatSessions := t.database.interaction.chatSessions ++ [session] }) := by
          intro id hid
          obtain ⟨stored, hstored, heq⟩ := List.mem_map.mp hid
          exact List.mem_map.mpr ⟨stored, List.mem_append_left _ hstored, heq⟩
        exact { h with
          messageSessions := h.messageSessions.mono hsessions
          activitySessions := h.activitySessions.mono hsessions }

/-- A message needs its conversation and its provider. -/
theorem Intact.appendChatMessage (message : ChatMessage) :
    Post (InteractionOperation.appendChatMessage message).perform t fun _ t' => Intact t' := by
  refine (appendMessage_spec message t).mono ?_
  rintro r t' (⟨-, haccepted, rfl⟩ | ⟨-, -, rfl⟩)
  · have hsessions : sessionIds (withMessage message t) = sessionIds t :=
      links_touchSession message _
    obtain ⟨hprovider, hmodel⟩ := mem_of_references haccepted.referenced
    refine { h with
      messageSessions := ?_
      messageProviders := h.messageProviders.append hprovider
      messageModels := h.messageModels.append hmodel
      activitySessions := by rw [hsessions]; exact h.activitySessions }
    rw [hsessions]
    refine h.messageSessions.append ?_
    intro id hid
    obtain ⟨session, hsession, heq⟩ := List.any_eq_true.mp haccepted.storable.session
    rw [messageSession, Option.some.injEq] at hid
    exact List.mem_map.mpr ⟨session, hsession, (beq_iff_eq.mp heq).trans hid⟩
  · exact h

/-- A line of the activity list needs its conversation. -/
theorem Intact.appendActivity (event : ActivityEvent) :
    Post (InteractionOperation.appendActivity event).perform t fun _ t' => Intact t' := by
  rw [InteractionOperation.perform, post_onDatabase, post_onInteraction, Interaction.appendActivity,
    post_bind, post_require]
  refine ⟨fun _ => ?_, fun _ => h⟩
  rw [next_ok, post_bind, post_gets, next_ok, post_bind, post_require]
  refine ⟨fun hcolumns => ?_, fun _ => h⟩
  rw [next_ok, post_bind]
  cases hinsert : insertRow ActivityEvent.id event t.database.interaction.activityEvents with
  | none => exact h
  | some rows =>
      obtain ⟨-, rfl⟩ := (insertRow_eq_some_iff _ _ _ _).mp hinsert
      refine { h with activitySessions := h.activitySessions.append ?_ }
      intro id hid
      rw [Bool.and_eq_true, Bool.and_eq_true, Option.all_eq_true] at hcolumns
      obtain ⟨session, hsession, heq⟩ := List.any_eq_true.mp (hcolumns.1.1 id hid)
      exact List.mem_map.mpr ⟨session, hsession, beq_iff_eq.mp heq⟩

/-! ### Models -/

/-- The models before one is saved: a default model takes that place from the others. -/
def demoteOthers (model : AiModel) (rows : List ModelRow) : List ModelRow :=
  if model.isDefault then
    updateRows (fun row : ModelRow =>
        (eq (some row.providerId) (some model.providerId)).and (ne (some row.id) (some model.id)))
      (fun row => { row with isDefault := false }) rows
  else rows

/-- The rows after a model is saved. -/
def saveModel (model : AiModel) (rows : List ModelRow) : List ModelRow :=
  upsertRow AiModel.id model (fun _ => model) (demoteOthers model rows)

omit h in
theorem map_demoteOthers {κ : Type} {key : AiModel → κ}
    (hkey : ∀ row, key { row with isDefault := false } = key row) (model : AiModel)
    (rows : List ModelRow) : (demoteOthers model rows).map key = rows.map key := by
  unfold demoteOthers
  split
  · exact map_updateRows _ hkey rows
  · rfl

omit h in
/-- A row is an old one that has lost its place at most. -/
theorem mem_demoteOthers {model row : AiModel} {rows : List ModelRow}
    (hrow : row ∈ demoteOthers model rows) :
    ∃ old ∈ rows, (row = old ∨ row = { old with isDefault := false }) ∧
      (row.isDefault = true → model.isDefault = true → row.id ≠ model.id →
        row.providerId ≠ model.providerId) := by
  unfold demoteOthers at hrow
  by_cases hdefault : model.isDefault = true
  · rw [if_pos hdefault, mem_updateRows] at hrow
    rcases hrow with ⟨old, hold, -, rfl⟩ | ⟨hold, hnot⟩
    · exact ⟨old, hold, .inr rfl, by simp⟩
    · refine ⟨row, hold, .inl rfl, fun _ _ hid howner => hnot ?_⟩
      rw [holds_and, holds_eq, holds_ne, howner]
      exact ⟨⟨rfl, rfl⟩, rfl, rfl, fun heq => hid (Option.some.inj heq)⟩
  · rw [if_neg hdefault] at hrow
    exact ⟨row, hrow, .inl rfl, fun _ hsome => absurd hsome hdefault⟩

/-- After the others are demoted no provider has two default models. -/
theorem Intact.defaults_demoteOthers (model : AiModel) :
    UniqueWhere AiModel.isDefault AiModel.providerId (demoteOthers model t.models) := by
  apply h.defaults.of_subset
  intro row hrow hdefault
  obtain ⟨old, hold, rfl | rfl, -⟩ := mem_demoteOthers hrow
  · exact hold
  · cases hdefault

/-- A model that passes the checks keeps the tables intact. -/
theorem Intact.withModel {model : AiModel} (hchecks : modelChecks model t = true) :
    Intact { t with models := saveModel model t.models } := by
  unfold modelChecks at hchecks
  simp only [Bool.and_eq_true] at hchecks
  obtain ⟨⟨-, hprovider⟩, hnames⟩ := hchecks
  -- The other defaults are withdrawn first, which changes neither keys nor names.
  have hkeys : UniqueKey AiModel.id (demoteOthers model t.models) := by
    unfold UniqueKey
    rw [map_demoteOthers fun _ => rfl]
    exact h.modelKeys
  have hids : modelIds t ⊆ modelIds { t with models := saveModel model t.models } := by
    have hsubset := keys_subset_upsertRow AiModel.id model (fun _ _ => rfl)
      (demoteOthers model t.models)
    rw [map_demoteOthers fun _ => rfl] at hsubset
    exact hsubset
  refine { h with
    modelKeys := hkeys.upsert fun _ _ => rfl
    modelNames := UniqueKey.replace ?_ hkeys ?_
    defaults := (h.defaults_demoteOthers model).upsert hkeys (fun _ => ⟨rfl, rfl⟩) ?_
    owners := ?_
    messageModels := h.messageModels.mono hids
    cacheModels := h.cacheModels.mono hids }
  · unfold UniqueKey
    rw [map_demoteOthers fun _ => rfl]
    exact h.modelNames
  · intro old hold hid hname
    obtain ⟨stored, hstored, hsame, -⟩ := mem_demoteOthers hold
    have hstored_id : stored.id = old.id := by rcases hsame with rfl | rfl <;> rfl
    have hstored_name : modelName stored = modelName old := by rcases hsame with rfl | rfl <;> rfl
    have hfree := List.all_eq_true.mp hnames stored hstored
    rw [← hstored_name, modelName, modelName, Prod.mk.injEq] at hname
    rw [hname.1, hname.2] at hfree
    simp [hstored_id, hid] at hfree
  · intro hdefault old hold hid hplace
    obtain ⟨-, -, -, hother⟩ := mem_demoteOthers hold
    exact hother hplace hdefault hid
  · refine Refers.upsert ?_ ?_ fun _ => rfl
    · refine h.owners.congr ?_
      exact map_demoteOthers (fun _ => rfl) model t.models
    · intro k hk
      obtain ⟨provider, hmem, heq⟩ := List.any_eq_true.mp hprovider
      rw [modelOwner, Option.some.injEq] at hk
      exact List.mem_map.mpr ⟨provider, hmem, (beq_iff_eq.mp heq).trans hk⟩

/-- So saving a model does. -/
theorem Intact.upsertModel (model : AiModel) :
    Post (Operations.upsertModel model) t fun _ t' => Intact t' := by
  rw [Operations.upsertModel, post_bind, post_require]
  refine ⟨fun _ => ?_, fun _ => h⟩
  rw [next_ok, post_bind, post_gets, next_ok, post_bind, post_require]
  refine ⟨fun hchecks => ?_, fun _ => h⟩
  exact h.withModel hchecks

/-! ### Removal -/

/-- A model that stays with its provider. -/
def staysWith (id : ProviderId) (model : ModelRow) : Bool := model.providerId != id

/-- A reference to a provider that is removed becomes empty. -/
def keptProvider (id : ProviderId) (named : Option ProviderId) : Option ProviderId :=
  named.filter fun other => other != id

/-- Whether no model of the provider has the identifier. -/
def survives (id : ProviderId) (models : List ModelRow) (other : ModelId) : Bool :=
  (models.filter fun model => model.providerId == id).all fun model => model.id != other

omit h in
theorem map_keptProvider (id : ProviderId) (named : Option ProviderId) :
    (keptProvider id named).map TypedId.asStr =
      (named.map TypedId.asStr).filter fun text => text != id.asStr := by
  cases named with
  | none => rfl
  | some other =>
      rw [keptProvider, Option.filter_some, Option.map_some, Option.filter_some]
      by_cases heq : other = id
      · rw [heq]
        simp
      · have hname : other.asStr ≠ id.asStr := fun hname => heq (TypedId.ext hname)
        simp [heq, hname]

omit h in
/-- A provider that is not the one removed stays. -/
theorem mem_providerIds_of_kept {id : ProviderId} {text : String} (htext : text ∈ providerIds t)
    (hkept : text ≠ id.asStr) : text ∈ (removeProvider t.providers id).2.map ProviderRow.id := by
  obtain ⟨row, hrow, rfl⟩ := List.mem_map.mp htext
  refine List.mem_map.mpr ⟨row, ?_, rfl⟩
  refine List.mem_filter.mpr ⟨hrow, ?_⟩
  have hnot : holds (eq (some row.id) (some id.asStr)) = false := by
    rw [Bool.eq_false_iff, Ne, holds_eq]
    exact fun heq => hkept (Option.some.inj heq.2)
  rw [hnot]
  rfl

omit h in
/-- A model that is not one of its models stays. -/
theorem mem_modelIds_of_survives {id : ProviderId} {model : ModelId} (hmodel : model ∈ modelIds t)
    (hsurvives : survives id t.models model = true) :
    model ∈ (t.models.filter (staysWith id)).map AiModel.id := by
  obtain ⟨row, hrow, rfl⟩ := List.mem_map.mp hmodel
  refine List.mem_map.mpr ⟨row, List.mem_filter.mpr ⟨hrow, ?_⟩, rfl⟩
  by_cases howner : row.providerId = id
  · have hlost := List.all_eq_true.mp hsurvives row
      (List.mem_filter.mpr ⟨hrow, beq_iff_eq.mpr howner⟩)
    simp at hlost
  · exact bne_iff_ne.mpr howner

/-- Removing a provider removes its models and empties what refers to them. -/
theorem Intact.deleteProvider (id : ProviderId) :
    Post (Operations.deleteProvider id) t fun _ t' => Intact t' := by
  rw [Operations.deleteProvider, post_bind, post_gets, next_ok, post_modify]
  dsimp only
  split
  · exact h
  -- The names of the removed provider and of its models are gone from every column.
  have hproviders : ∀ text ∈ providerIds t, (text != id.asStr) = true →
      text ∈ (Providers.removeProvider t.providers id).2.map ProviderRow.id :=
    fun text htext hkept => mem_providerIds_of_kept htext (bne_iff_ne.mp hkept)
  have hmodels : ∀ model ∈ modelIds t, survives id t.models model = true →
      model ∈ (t.models.filter (staysWith id)).map AiModel.id :=
    fun model hmodel hkept => mem_modelIds_of_survives hmodel hkept
  exact {
    settings := h.settings
    providerKeys := h.providerKeys.sublist (List.filter_sublist.map ProviderRow.id)
    modelKeys := h.modelKeys.sublist (List.filter_sublist.map AiModel.id)
    modelNames := h.modelNames.sublist (List.filter_sublist.map modelName)
    credentials := h.credentials.of_subset fun _ hrow _ => (List.mem_filter.mp hrow).1
    defaults := h.defaults.of_subset fun _ hrow _ => (List.mem_filter.mp hrow).1
    owners := h.owners.cascade fun model _ hstays text htext hname => by
      refine hproviders text htext (bne_iff_ne.mpr fun heq => ?_)
      rw [modelOwner, Option.some.injEq] at hname
      exact bne_iff_ne.mp hstays (TypedId.ext (hname.trans heq))
    messageSessions := h.messageSessions.congr (List.map_map ..)
    messageProviders := h.messageProviders.setNull
      (fun message => map_keptProvider id message.providerId) hproviders
    messageModels := h.messageModels.setNull (fun _ => rfl) hmodels
    activitySessions := h.activitySessions
    cacheProviders := h.cacheProviders.setNull
      (fun row => map_keptProvider id row.originalProviderId) hproviders
    cacheModels := h.cacheModels.setNull (fun _ => rfl) hmodels }

/-! ### Cache -/

omit h in
/-- A response is stored where its references exist, or nothing happens. -/
theorem storeResponseCandidate_cases (referenced : Bool) (entry : CachedResponse)
    (t : CacheTables) :
    Post (ResponseCache.storeResponseCandidate referenced entry) t fun _ t' =>
      t' = t ∨ referenced = true ∧ t'.responseCache = upsertRow CacheRow.slot (.ofEntry entry)
        (fun _ => .ofEntry entry) t.responseCache := by
  rw [ResponseCache.storeResponseCandidate, post_bind, post_require]
  refine ⟨fun _ => ?_, fun _ => .inl rfl⟩
  rw [next_ok, post_bind, post_require]
  refine ⟨fun _ => ?_, fun _ => .inl rfl⟩
  rw [next_ok, post_bind, post_require]
  refine ⟨fun hchecks => ?_, fun _ => .inl rfl⟩
  rw [next_ok, post_bind, post_gets, next_ok, post_bind]
  cases hplace : placeRow (CacheRow.ofEntry entry) t.responseCache with
  | none => exact .inl rfl
  | some rows =>
      unfold placeRow at hplace
      split at hplace
      · cases hplace
      · cases hplace
        exact .inr ⟨(Bool.and_eq_true_iff.mp hchecks).2, rfl⟩

/-- A stored response refers to what is there. -/
theorem Intact.storeResponseCandidate (entry : CachedResponse) :
    Post (InteractionOperation.storeResponseCandidate entry).perform t fun _ t' => Intact t' := by
  rw [InteractionOperation.perform, post_bind, post_gets, next_ok, onCache, post_within]
  refine (storeResponseCandidate_cases _ entry (cacheTables t)).mono ?_
  rintro r cache (rfl | ⟨hreferenced, hrows⟩)
  · exact h.of_shape rfl
  · obtain ⟨hprovider, hmodel⟩ := mem_of_references hreferenced
    refine { h with
      cacheProviders := ?_
      cacheModels := ?_ }
    · dsimp only
      rw [hrows]
      exact h.cacheProviders.upsert hprovider fun _ => rfl
    · dsimp only
      rw [hrows]
      exact h.cacheModels.upsert hmodel fun _ => rfl

/-! ## Every run -/

/-- Every operation of `interaction.rs` keeps the tables intact. -/
theorem intact_interaction (operation : InteractionOperation) :
    Post operation.perform t fun _ t' => Intact t' := by
  cases operation with
  | updateApplicationSettings settings nowMs => exact h.updateApplicationSettings settings nowMs
  | upsertProvider provider => exact h.upsertProvider provider
  | removeProvider id => exact h.deleteProvider id
  | upsertModel model => exact h.upsertModel model
  | ensureChatSession requested title nowMs fresh =>
      exact h.ensureChatSession requested title nowMs fresh
  | appendChatMessage message => exact h.appendChatMessage message
  | appendActivity event => exact h.appendActivity event
  | storeResponseCandidate entry => exact h.storeResponseCandidate entry
  | recordCacheHit id nowMs estimatedTokensAvoided =>
      exact h.of_shape
        (keepsShape_onCache (cacheNames_recordCacheHit id nowMs estimatedTokensAvoided) t)
  | applyResponseFeedback id feedback =>
      exact h.of_shape (keepsShape_onCache (cacheNames_applyResponseFeedback id feedback) t)
  | addUsage delta => exact h.of_shape (keepsShape_onInteraction (keepsChat_addUsage delta) t)
  | setMemoryState id pinned disabled priorityPermille =>
      have hkeeps : Keeps (Same shape) (InteractionOperation.setMemoryState id pinned disabled
          priorityPermille).perform := keeps_discardValue fun _ => rfl
      exact h.of_shape (hkeeps t)

end

/-- So does every call, refused or not. -/
theorem intact_call (serde : ScopeCodec) (codec : ArgumentsCodec) (t : Tables) (call : Call)
    (h : Intact t) : Intact (call.perform serde codec t).2 := by
  have hpost : Post (call.perform serde codec) t fun _ t' => Intact t' := by
    rw [Call.perform, post_bind, post_require]
    refine ⟨fun _ => ?_, fun _ => h⟩
    rw [next_ok]
    cases call.operation with
    | interaction operation => exact intact_interaction h operation
    | runtime operation => exact h.of_shape (keepsShape_runtime codec operation t)
    | security operation => exact h.of_shape (keepsShape_security serde codec operation t)
    | queue operation => exact h.of_shape (keepsShape_queue operation t)
    | appendAudit record => exact h.of_shape rfl
    | recordExecution receipt records => exact h.of_shape rfl
    | persistMemoryRevision fails auditId item revision evidence => exact h.of_shape rfl
  exact hpost

/-- A new database is intact. -/
theorem intact_empty : Intact .empty where
  settings := ApplicationSettings.validate_default
  providerKeys := List.nodup_nil
  modelKeys := List.nodup_nil
  modelNames := List.nodup_nil
  credentials := uniqueWhere_nil _ _
  defaults := uniqueWhere_nil _ _
  owners := refers_nil _ _
  messageSessions := refers_nil _ _
  messageProviders := refers_nil _ _
  messageModels := refers_nil _ _
  activitySessions := refers_nil _ _
  cacheProviders := refers_nil _ _
  cacheModels := refers_nil _ _

/-- Every reached database is intact, by induction on the calls. -/
theorem intact_reached (serde : ScopeCodec) (codec : ArgumentsCodec) (calls : List Call) :
    Intact (reached serde codec calls) :=
  run_invariant (I := Intact) (intact_call serde codec) intact_empty calls

end Halquen.Storage.Integrity
