import Halquen.Service.Gateway
import Halquen.Storage.Conversations

/-!
# Steps of the AI gateway

What each statement on the path of a request to a model needs and does: the message and activity
tables grow by one row, the usage by the counted amounts, the cache by one candidate
(`appendMessage_spec` and the specifications after it). From them follow the reception of a message
(`receive_spec`) and the choice and preparation of the model call (`prepare_spec`), which read the
tables and change none of them.
-/

set_option autoImplicit false

namespace Halquen.Service.Fallback

open Halquen.Domain.Ids Halquen.Domain.Capability Halquen.Domain.Gateway
open Halquen.Domain.Interaction Halquen.Protocol.Messages
open Halquen.Ai.Context Halquen.Ai.Prompt Halquen.Ai.Provider Halquen.Ai.Router
open Halquen.Library.Action Halquen.Library.Action.Act Halquen.Library.Ranking Halquen.Library.Sql
open Halquen.Service.Chat (userMessageOf)
open Halquen.Service.ChatParser Halquen.Service.Gateway
open Halquen.Service.State (Failure internalError validation)
open Halquen.Storage.Grants (StorageError)
open Halquen.Storage.Conversations Halquen.Storage.Interaction Halquen.Storage.Labels
open Halquen.Storage.Operations
open Halquen.Storage.Providers Halquen.Storage.ResponseCache Halquen.Storage.Sqlite

/-! ## Primitives -/

section

variable {E : Environment} {α : Type} {s : GatewayState}

/-- One rule for each question to the environment. -/
@[simp]
theorem post_consult {f : Nat → α} {Q : Except Failure α → GatewayState → Prop} :
    Post (consult f) s Q ↔ Q (.ok (f s.consulted)) { s with consulted := s.consulted + 1 } :=
  Iff.rfl

@[simp]
theorem post_now {Q : Except Failure Int → GatewayState → Prop} :
    Post (now E) s Q ↔ Q (.ok (E.clock s.consulted)) { s with consulted := s.consulted + 1 } :=
  Iff.rfl

@[simp]
theorem post_generate {kind : GeneratedKind}
    {Q : Except Failure (TypedId (.generated kind)) → GatewayState → Prop} :
    Post (generate E kind) s Q ↔ Q (.ok (.generate kind (E.stamp s.consulted)))
      { s with consulted := s.consulted + 1 } :=
  Iff.rfl

@[simp]
theorem returns_consult {f : Nat → α} {Q : α → GatewayState → Prop} :
    Returns (consult f) s Q ↔ Q (f s.consulted) { s with consulted := s.consulted + 1 } := by
  simp [Returns, Post, consult]

@[simp]
theorem returns_now {Q : Int → GatewayState → Prop} :
    Returns (now E) s Q ↔ Q (E.clock s.consulted) { s with consulted := s.consulted + 1 } :=
  returns_consult

@[simp]
theorem returns_generate {kind : GeneratedKind}
    {Q : TypedId (.generated kind) → GatewayState → Prop} :
    Returns (generate E kind) s Q ↔ Q (.generate kind (E.stamp s.consulted))
      { s with consulted := s.consulted + 1 } :=
  returns_consult

/-- A query is judged on the tables. -/
@[simp]
theorem returns_query {m : Act Tables StorageError α} {Q : α → GatewayState → Prop} :
    Returns (query m) s Q ↔ Returns m s.tables fun a t => Q a { s with tables := t } := by
  unfold query Returns
  rw [post_mapError, post_within]
  unfold Post
  cases (m s.tables).1 <;> simp [Except.mapError]

@[simp]
theorem returns_read {f : Tables → Except StorageError α} {Q : α → GatewayState → Prop} :
    Returns (Gateway.read f) s Q ↔ ∀ a, f s.tables = .ok a → Q a s := by
  unfold Gateway.read
  rw [returns_query]
  simp [Returns]

@[simp]
theorem returns_perform {operation : InteractionOperation} {Q : Unit → GatewayState → Prop} :
    Returns (Gateway.perform operation) s Q ↔
      Returns operation.perform s.tables fun u t => Q u { s with tables := t } :=
  returns_query

end

/-! ## Reception -/

/-- The tables that are read between the reception of a message and the model call are the same. -/
structure SameSettings (t t' : Tables) : Prop where
  settings : t'.settings = t.settings
  providers : t'.providers = t.providers
  models : t'.models = t.models

/-- A message that has been received. -/
structure Received (E : Environment) (s : GatewayState) (request : ChatRequest)
    (session : ChatSession) (userMessage : ChatMessage) (s' : GatewayState) : Prop where
  length : (userMessage.content != "" && decide (userMessage.content.utf8ByteSize ≤ 16384)) = true
  message : ∃ id, userMessage = userMessageOf id session.id
    (String.ofList (trim request.message.toList)) (E.clock s.consulted)
  session : request.sessionId = some session.id ∨ request.sessionId = none ∧
    ∀ other ∈ s.tables.database.interaction.chatSessions, other.id ≠ session.id
  fresh : ∀ other ∈ s.tables.database.interaction.chatMessages, other.id ≠ userMessage.id
  messages : s'.tables.database.interaction.chatMessages =
    s.tables.database.interaction.chatMessages ++ [userMessage]
  same : SameSettings s.tables s'.tables
  responseCache : s'.tables.responseCache = s.tables.responseCache

/-- A line of the activity list changes no other table. -/
theorem activity_spec (E : Environment) (sessionId : ChatSessionId) (correlationId : String)
    (kind : ActivityKind) (summary : String) (detail : Option String) (s : GatewayState) :
    Returns (activity E sessionId correlationId kind summary detail) s fun _ s' =>
      ∃ event, s' = { s with
        tables := withActivity event s.tables
        consulted := s.consulted + 2 } := by
  simp only [activity, returns_bind, returns_generate, returns_now, returns_perform]
  refine Post.mono (appendActivity_spec _ s.tables) ?_
  rintro r t (⟨-, -, rfl⟩ | ⟨⟨e, rfl⟩, -⟩) u hr
  · exact ⟨_, rfl⟩
  · cases hr

/-- A message that is received is stored as the last of its conversation. -/
theorem receive_spec (E : Environment) (request : ChatRequest) (correlationId : String)
    (s : GatewayState) :
    Returns (receive E request correlationId) s fun received s' =>
      Received E s request received.1 received.2 s' := by
  simp only [receive, returns_bind, returns_require, returns_now, returns_generate, returns_query,
    returns_perform, returns_onInteraction]
  intro hlength
  refine Post.mono (ensureChatSession_spec request.sessionId _ _ _
    s.tables.database.interaction) ?_
  rintro _ rows hsession session rfl
  refine Post.mono (appendMessage_spec _ _) ?_
  rintro r t (⟨-, haccepted, rfl⟩ | ⟨⟨e, rfl⟩, -⟩) u hr
  · refine (activity_spec E session.id correlationId _ _ _ _).mono ?_
    rintro - s' ⟨event, rfl⟩
    rw [returns_pure]
    have hrows : rows.chatMessages = s.tables.database.interaction.chatMessages := by
      rcases hsession with ⟨-, -, rfl⟩ | ⟨-, -, -, rfl⟩ <;> rfl
    refine ⟨hlength, ⟨_, rfl⟩, ?_, ?_, ?_, ⟨rfl, rfl, rfl⟩, rfl⟩
    · rcases hsession with ⟨hid, -, -⟩ | ⟨hnone, hid, hfresh, -⟩
      · exact .inl hid
      · exact .inr ⟨hnone, hid ▸ hfresh⟩
    · intro other hother
      exact haccepted.storable.fresh other (hrows ▸ hother)
    · exact congrArg (· ++ [_]) hrows
  · cases hr

/-- Looking for a stored response changes nothing. -/
theorem cachedAnswer_spec (E : Environment) (userMessage : ChatMessage) (s : GatewayState) :
    Returns (cachedAnswer E userMessage) s fun _ s' => s' = s := by
  simp only [cachedAnswer, returns_bind, returns_gets]
  split
  · rw [returns_read]
    exact fun _ _ => rfl
  · rw [returns_pure]

/-! ## Preparation -/

/-- A call that was prepared from these tables. -/
structure PreparedFrom (t : Tables) (selection : ModelSelection) (session : ChatSession)
    (userMessage : ChatMessage) (prepared : Prepared) : Prop where
  selected : ∃ providers, listProviders t.providers = .ok providers ∧
    select t.settings providers (listModels t.models) (routeRequest t.settings selection) =
      .ok prepared.selected ∧
    prepared.provider ∈ providers ∧ prepared.provider.id = prepared.selected.providerId
  model : prepared.model ∈ listModels t.models ∧ prepared.model.id = prepared.selected.modelId
  projection : prepared.projection = recentContext t session userMessage
  request : prepared.request = requestOf t.settings userMessage prepared.projection

/-- Outcome of the preparation on these tables. -/
def Prepares (t : Tables) (selection : ModelSelection) (session : ChatSession)
    (userMessage : ChatMessage) : Except RouteError Prepared → Prop
  | .ok prepared => PreparedFrom t selection session userMessage prepared
  | .error e => ∃ providers, listProviders t.providers = .ok providers ∧
      select t.settings providers (listModels t.models) (routeRequest t.settings selection) =
        .error e

/-- Reading a secret changes nothing. -/
theorem providerCredential_spec (E : Environment) (provider : Domain.Gateway.Provider)
    (s : GatewayState) :
    Returns (providerCredential E provider) s fun _ s' =>
      s'.tables = s.tables ∧ s'.exchanges = s.exchanges := by
  unfold providerCredential
  cases provider.credentialId with
  | none =>
      rw [returns_pure]
      exact ⟨rfl, rfl⟩
  | some reference =>
      simp only [returns_bind, returns_consult, returns_ofExcept]
      exact fun _ _ => ⟨trivial, trivial⟩

/-- What is prepared is chosen from the tables, which stay as they are. -/
theorem prepare_spec (E : Environment) (selection : ModelSelection) (session : ChatSession)
    (userMessage : ChatMessage) (s : GatewayState) :
    Returns (prepare E selection session userMessage) s fun outcome s' =>
      s'.tables = s.tables ∧ s'.exchanges = s.exchanges ∧
        Prepares s.tables selection session userMessage outcome := by
  simp only [prepare, route, returns_bind, returns_gets, returns_read, returns_pure]
  rintro providers hproviders models ⟨⟩
  cases hselect : select s.tables.settings providers (listModels s.tables.models)
      (routeRequest s.tables.settings selection) with
  | error e =>
      rw [returns_pure]
      exact ⟨rfl, rfl, providers, hproviders, hselect⟩
  | ok selected =>
      simp only [returns_bind, returns_orThrow, returns_gets, returns_pure]
      intro provider hprovider model hmodel
      refine (providerCredential_spec E provider s).mono ?_
      rintro credential s' ⟨htables, hexchanges⟩
      rw [htables]
      have hid := List.find?_some hprovider
      have hid' := List.find?_some hmodel
      rw [beq_iff_eq] at hid hid'
      exact ⟨rfl, hexchanges, ⟨providers, hproviders, hselect,
        List.mem_of_find?_eq_some hprovider, hid⟩,
        ⟨List.mem_of_find?_eq_some hmodel, hid'⟩, rfl, rfl⟩

end Halquen.Service.Fallback
