import Halquen.Ai.ProviderClient
import Halquen.Service.RequestIsolation
import Halquen.Storage.Integrity

/-!
# Egress

What leaves the machine when messages are answered. Every request that was handed to the provider
client in a run of chats and storage calls was made by one chat of the run, which made no other, and
the settings and tables of that moment permitted it (`Permits`): the budget, the provider, the
model, the privacy class, the context and its length. It went to a permitted endpoint of that
provider, with the credential of that provider (`egress_guarded`). Its prompt begins with the core
security contract (`managedPrompt_first`).
-/

set_option autoImplicit false

namespace Halquen.Service.Egress

open Halquen.Domain.Ids Halquen.Domain.Gateway Halquen.Domain.Interaction Halquen.Protocol.Messages
open Halquen.Ai.Context Halquen.Ai.Endpoint Halquen.Ai.Prompt Halquen.Ai.Provider
open Halquen.Ai.ProviderClient (Transport Guarded complete completionRequest
  completionRequest_guarded)
open Halquen.Ai.Router
open Halquen.Ai.Secret (SecretError)
open Halquen.Library.Action Halquen.Library.Action.Act Halquen.Library.Budget
open Halquen.Library.Listing Halquen.Library.Run Halquen.Library.Rules Halquen.Library.Sql
open Halquen.Service.Chat Halquen.Service.Fallback Halquen.Service.Gateway
open Halquen.Service.ModelCalls Halquen.Service.RequestIsolation
open Halquen.Storage.Agents Halquen.Storage.Conversations Halquen.Storage.Grants
open Halquen.Storage.Integrity Halquen.Storage.Operations Halquen.Storage.Providers
open Halquen.Storage.Sqlite

/-! ## Tables along a run -/

/-- The tables stay intact. -/
def KeepsIntact (s s' : GatewayState) : Prop := Intact s.tables → Intact s'.tables

instance KeepsIntact.isPreorder : IsPreorder GatewayState KeepsIntact where
  refl _ := id
  trans _ _ _ h h' := h' ∘ h

theorem keepsIntact_steps : KeptBySteps KeepsIntact where
  consult _ _ := id
  read _ _ := id
  perform _ _ h := intact_interaction h _
  session requested title nowMs fresh s h := by
    have hintact := h.ensureChatSession requested title nowMs fresh
    rw [InteractionOperation.perform, discardValue, Post, state_map] at hintact
    exact hintact

section

variable {E : Environment} {s : GatewayState}

theorem keepsIntact_exchange (prepared : Prepared) : Keeps KeepsIntact (exchange E prepared) := by
  intro s
  rcases exchange_cases E prepared s with ⟨-, heq⟩ | ⟨reply, -, -, heq⟩
  · rw [heq]
    exact id
  · rw [heq]
    exact id

theorem intact_chat (h : Intact s.tables) (request : ChatRequest) (correlationId : String) :
    Intact (chat E request correlationId s).2.tables :=
  keepsIntact_steps.chat (fun _ _ hs => intact_interaction hs _) keepsIntact_exchange request
    correlationId s h

end

theorem intact_service (E : Environment) (serde : ScopeCodec) (codec : ArgumentsCodec)
    (events : List Event) : Intact (RequestIsolation.reached E serde codec events).tables := by
  apply run_invariant (I := fun s : GatewayState => Intact s.tables) _ intact_empty
  intro s event h
  cases event with
  | chat request correlationId => exact intact_chat h request correlationId
  | call call hother => exact intact_call serde codec s.tables call h

/-! ## What is permitted -/

/-- The secret that the provider refers to, or nothing where it refers to none. -/
inductive OwnCredential (retrieve : Nat → String → Except SecretError String)
    (provider : Domain.Gateway.Provider) : Option String → Prop where
  | none (h : provider.credentialId = none) : OwnCredential retrieve provider none
  | secret (n : Nat) (reference secret : String) (h : provider.credentialId = some reference)
      (hsecret : retrieve n reference = .ok secret) : OwnCredential retrieve provider (some secret)

/-- The tables permit the exchange, with this credential, as an answer to the request. -/
structure Permits (retrieve : Nat → String → Except SecretError String) (t : Tables)
    (request : ChatRequest) (exchange : Exchange) (credential : Option String) : Prop where
  budget : t.settings.maxModelCallsPerRequest ≠ 0
  provider : ∃ row ∈ t.providers, providerFromRow row = .ok exchange.provider
  model : exchange.model ∈ listModels t.models
  enabled : exchange.model.enabled = true
  task : AiTaskType.conversation ∈ exchange.model.taskEligibility
  chosen : ∀ id, request.modelSelection = .model id → exchange.model.id = id
  serves : Serves t.settings (routeRequest t.settings request.modelSelection) exchange.model
    exchange.provider
  impersonal : t.settings.allowPersonalContext = false → exchange.request.context = []
  tokens : (exchange.request.context.map ContextItemPayload.tokens).sum ≤
    t.settings.maxContextTokens.toNat
  output : exchange.request.maxOutputTokens = t.settings.maxOutputTokens
  credential : OwnCredential retrieve exchange.provider credential
  /-- No other provider refers to the same secret. -/
  exclusive : ∀ row ∈ t.providers, hasCredential row = true →
    row.credentialId = exchange.provider.credentialId → row.id = exchange.provider.id.asStr

section

variable {settings : ApplicationSettings} {providers : List Domain.Gateway.Provider}
  {models : List AiModel} {request : RouteRequest} {selected : SelectedModel}

theorem routes_of_select (h : select settings providers models request = .ok selected) :
    settings.maxModelCallsPerRequest ≠ 0 ∧
      (∀ id, request.selection = .model id → selected.modelId = id) ∧
      ∃ model, Routes settings providers models request selected model := by
  by_cases hbudget : settings.maxModelCallsPerRequest = 0
  · rw [select_of_no_budget hbudget] at h
    cases h
  · refine ⟨hbudget, ?_⟩
    cases hselection : request.selection with
    | automatic =>
        obtain ⟨model, hroutes, -⟩ := routes_of_automatic hbudget hselection h
        refine ⟨?_, model, hroutes⟩
        rintro id ⟨⟩
    | model id =>
        obtain ⟨hid, model, hroutes⟩ := routes_of_manual hbudget hselection h
        refine ⟨?_, model, hroutes⟩
        rintro _ ⟨⟩
        exact hid

end

section

variable {t : Tables}

theorem nodup_listModels (h : Intact t) : ((listModels t.models).map AiModel.id).Nodup := by
  rw [listModels, List.map_map]
  exact ((perm_orderBy modelKey t.models).map AiModel.id).nodup_iff.mpr h.modelKeys

/-- Listed providers come from rows. -/
theorem row_of_listed {providers : List Domain.Gateway.Provider}
    (h : listProviders t.providers = .ok providers) {provider : Domain.Gateway.Provider}
    (hprovider : provider ∈ providers) :
    ∃ row ∈ t.providers, providerFromRow row = .ok provider := by
  obtain ⟨row, hrow, hread⟩ :=
    exists_of_forall₂_right ((mapM_eq_ok_iff _ _ _).mp h) hprovider
  exact ⟨row, (perm_orderBy _ _).mem_iff.mp hrow, hread⟩

/-- Listed providers of one identifier are the same. -/
theorem listed_unique (hintact : Intact t) {providers : List Domain.Gateway.Provider}
    (h : listProviders t.providers = .ok providers) {a b : Domain.Gateway.Provider}
    (ha : a ∈ providers) (hb : b ∈ providers) (hid : a.id = b.id) : a = b := by
  obtain ⟨row, hrow, hread⟩ := row_of_listed h ha
  obtain ⟨row', hrow', hread'⟩ := row_of_listed h hb
  have hrows : row = row' := by
    apply hintact.providerKeys.eq_of_mem hrow hrow'
    rw [← (providerFromRow_spec hread).1, ← (providerFromRow_spec hread').1, hid]
  rw [← hrows, hread] at hread'
  exact Except.ok.inj hread'

/-- A secret that a listed provider refers to is not the one of another row. -/
theorem credential_exclusive (hintact : Intact t) {providers : List Domain.Gateway.Provider}
    (h : listProviders t.providers = .ok providers) {provider : Domain.Gateway.Provider}
    (hprovider : provider ∈ providers) : ∀ row ∈ t.providers, hasCredential row = true →
      row.credentialId = provider.credentialId → row.id = provider.id.asStr := by
  obtain ⟨own, hown, hread⟩ := row_of_listed h hprovider
  obtain ⟨hid, hcredential⟩ := providerFromRow_spec hread
  intro row hrow hsome hsame
  rw [hcredential] at hsame
  have hownSome : hasCredential own = true := by
    rw [hasCredential, ← hsame]
    exact hsome
  rw [hintact.credentials row hrow own hown hsome hownSome hsame, hid]

/-- The settings of a database are the ones that the builder of the context does not clamp. -/
theorem clampTokens_settings (h : Intact t) :
    clampTokens t.settings.maxContextTokens.toNat = t.settings.maxContextTokens.toNat := by
  have hvalid := h.settings
  simp only [ApplicationSettings.validate, firstFailure_eq_ok_iff, silent_cons, rule_eq_none_iff,
    Bool.not_eq_false', decide_eq_true_eq, UInt32.le_iff_toNat_le] at hvalid
  obtain ⟨-, -, -, ⟨hlower, hupper⟩, -⟩ := hvalid
  have hleast : (256 : UInt32).toNat = 256 := rfl
  have hmost : (131072 : UInt32).toNat = 131072 := rfl
  unfold clampTokens
  omega

theorem tokens_build_le (maxTokens : Nat) (candidates : List ContextItem) :
    ((build maxTokens candidates).items.map ContextItemPayload.tokens).sum ≤
      clampTokens maxTokens := by
  rw [build_items]
  exact sum_greedy_le _ _

end

/-! ## The call -/

section

variable {E : Environment} {s s' : GatewayState} {request : ChatRequest} {correlationId : String}
  {session : ChatSession} {userMessage : ChatMessage} {prepared : Prepared}

theorem providerCredential_own (E : Environment) (provider : Domain.Gateway.Provider)
    (s : GatewayState) :
    Returns (providerCredential E provider) s fun credential _ =>
      OwnCredential E.retrieve provider credential := by
  unfold Gateway.providerCredential
  cases hcredential : provider.credentialId with
  | none =>
      rw [returns_pure]
      exact .none hcredential
  | some reference =>
      simp only [returns_bind, returns_consult, returns_ofExcept]
      intro credential hread
      cases hsecret : E.retrieve s.consulted reference with
      | error e =>
          rw [hsecret] at hread
          cases hread
      | ok secret =>
          rw [hsecret] at hread
          cases hread
          exact .secret s.consulted reference secret hcredential hsecret

theorem prepare_credential (E : Environment) (selection : ModelSelection) (session : ChatSession)
    (userMessage : ChatMessage) (s : GatewayState) :
    Returns (prepare E selection session userMessage) s fun outcome _ =>
      ∀ prepared, outcome = .ok prepared →
        OwnCredential E.retrieve prepared.provider prepared.credential := by
  simp only [prepare, route, returns_bind, returns_gets, returns_read, returns_pure]
  rintro providers - models -
  cases select s.tables.settings providers models
      (routeRequest s.tables.settings selection) with
  | error e =>
      rw [returns_pure]
      rintro prepared ⟨⟩
  | ok selected =>
      simp only [returns_bind, returns_orThrow, returns_gets, returns_pure]
      rintro provider - model -
      refine (providerCredential_own E provider s).mono ?_
      rintro credential s' hown prepared ⟨⟩
      exact hown

/-- What a call of the client sends was permitted when the message came. -/
theorem permits_of_called {reply : Option (Except AiError AiResponse)} (hintact : Intact s.tables)
    (hlinked : Linked s.tables)
    (h : Called E s request correlationId session userMessage prepared reply s') :
    Permits E.retrieve s.tables request
        ⟨prepared.provider, prepared.model, prepared.request, reply⟩ prepared.credential ∧
      ∃ n, reply = E.complete n prepared.provider prepared.model prepared.credential
        prepared.request := by
  have hrequest := h.request_eq hlinked
  obtain ⟨s₁, s₂, s₃, s₄, s₅, hreceive, -, hcached, hmiss, hprepare, -, -, hreply, -⟩ := h.steps
  refine ⟨?_, _, hreply⟩
  have hown := (prepare_credential E _ _ _ _).of_eq hprepare prepared rfl
  have hsame := ((receive_spec E request correlationId s).of_eq hreceive).same
  obtain rfl := (cachedAnswer_spec E userMessage s₁).of_eq hcached
  obtain ⟨event, rfl⟩ := (activity_spec E _ _ _ _ _ s₂).of_eq hmiss
  obtain ⟨-, -, hprepared⟩ := (prepare_spec E _ _ _ _).of_eq hprepare
  obtain ⟨providers, hproviders, hselect, hprovider, hproviderId⟩ := hprepared.selected
  obtain ⟨hmodel, hmodelId⟩ := hprepared.model
  -- The tables that the selection reads are those before the message.
  change listProviders s₂.tables.providers = _ at hproviders
  change select s₂.tables.settings providers (listModels s₂.tables.models)
    (routeRequest s₂.tables.settings _) = _ at hselect
  change prepared.model ∈ listModels s₂.tables.models at hmodel
  rw [hsame.providers] at hproviders
  rw [hsame.settings, hsame.models] at hselect
  rw [hsame.models] at hmodel
  obtain ⟨hbudget, hchosen, model, hroutes⟩ := routes_of_select hselect
  -- Both models are listed, and a listed model is found by its identifier alone.
  have hsameModel : prepared.model = model :=
    List.inj_on_of_nodup_map (nodup_listModels hintact) hmodel hroutes.listed
      (hmodelId.trans hroutes.model_id)
  obtain ⟨provider, hlisted, hserves⟩ := hroutes.eligible.served
  -- So is a listed provider.
  have hsameProvider : prepared.provider = provider :=
    listed_unique hintact hproviders hprovider hlisted
      (hproviderId.trans (hroutes.provider_id.trans hserves.owner.symm))
  -- The window of messages is built within the bound of the settings.
  have htokens := tokens_build_le s.tables.settings.maxContextTokens.toNat
    ((shownMessages s.tables.settings (recentMessages s.tables request.sessionId)
      (E.clock s.consulted)).map contextItem)
  rw [clampTokens_settings hintact] at htokens
  exact {
    budget := hbudget
    provider := row_of_listed hproviders hprovider
    model := hmodel
    enabled := hsameModel ▸ hroutes.eligible.enabled
    task := hsameModel ▸ hroutes.eligible.task
    chosen := fun id hid => hmodelId.trans (hchosen id hid)
    serves := by
      dsimp only
      rw [hsameModel, hsameProvider]
      exact hserves
    impersonal := fun hprivate => by
      dsimp only
      rw [hrequest, shownMessages_of_private hprivate]
      rfl
    tokens := by
      dsimp only
      rw [hrequest]
      exact htokens
    output := by
      dsimp only
      rw [hrequest]
      rfl
    credential := hown
    exclusive := credential_exclusive hintact hproviders hprovider }

/-- A chat makes no exchange, or one that was permitted. -/
theorem chat_permitted (hintact : Intact s.tables) (hlinked : Linked s.tables)
    (request : ChatRequest) (correlationId : String) :
    (chat E request correlationId s).2.exchanges = s.exchanges ∨
    ∃ exchange credential n,
      (chat E request correlationId s).2.exchanges = s.exchanges ++ [exchange] ∧
      Permits E.retrieve s.tables request exchange credential ∧
      exchange.reply = E.complete n exchange.provider exchange.model credential
        exchange.request := by
  rcases chat_cases E request correlationId s with
    hnone | ⟨session, userMessage, prepared, reply, s', hcalled, hchat⟩
  · exact .inl hnone
  · obtain ⟨hpermits, n, hreply⟩ := permits_of_called hintact hlinked hcalled
    refine .inr ⟨_, _, n, ?_, hpermits, hreply⟩
    rw [hchat, state_map]
    exact (keepsCalls_answerReply prepared session userMessage correlationId reply s').trans
      hcalled.exchanges

end

/-! ## Every run -/

section

variable {E : Environment} {serde : ScopeCodec} {codec : ArgumentsCodec} {events : List Event}
  {exchange : Exchange}

theorem step_chat (s : GatewayState) (request : ChatRequest) (correlationId : String) :
    RequestIsolation.step E serde codec s (.chat request correlationId) =
      (chat E request correlationId s).2 := rfl

/-- A chat logs one exchange at most, a call of the storage none. -/
theorem logs_one (s : GatewayState) (event : Event) :
    (RequestIsolation.step E serde codec s event).exchanges = s.exchanges ∨
      ∃ exchange, (RequestIsolation.step E serde codec s event).exchanges =
        s.exchanges ++ [exchange] := by
  cases event with
  | call call hother => exact .inl rfl
  | chat request correlationId =>
      rw [step_chat]
      rcases chat_cases E request correlationId s with
        hnone | ⟨session, userMessage, prepared, reply, s', hcalled, hchat⟩
      · exact .inl hnone
      · refine .inr ⟨⟨prepared.provider, prepared.model, prepared.request, reply⟩, ?_⟩
        rw [hchat, state_map]
        exact (keepsCalls_answerReply prepared session userMessage correlationId reply s').trans
          hcalled.exchanges

/-- The exchange was made by a chat of the run, and by no other, and permitted by what that
found. -/
theorem made_by_chat (h : exchange ∈ (RequestIsolation.reached E serde codec events).exchanges) :
    ∃ before request correlationId after credential n,
      let s := RequestIsolation.reached E serde codec before
      events = before ++ .chat request correlationId :: after ∧
      (chat E request correlationId s).2.exchanges = s.exchanges ++ [exchange] ∧
      Permits E.retrieve s.tables request exchange credential ∧
      exchange.reply = E.complete n exchange.provider exchange.model credential
        exchange.request := by
  obtain ⟨before, event, after, hevents, hmade⟩ := exists_logged logs_one List.not_mem_nil h
  change (RequestIsolation.step E serde codec (RequestIsolation.reached E serde codec before)
    event).exchanges = (RequestIsolation.reached E serde codec before).exchanges ++ _ at hmade
  cases event with
  | call call hother => exact absurd (List.self_eq_append_right.mp hmade) (List.cons_ne_nil _ _)
  | chat request correlationId =>
      rw [step_chat] at hmade
      rcases chat_permitted (intact_service E serde codec before)
          (sound_reached E serde codec before).linked request correlationId with
        hnone | ⟨other, credential, n, hcalled, hpermits, hreply⟩
      · rw [hnone] at hmade
        exact absurd (List.self_eq_append_right.mp hmade) (List.cons_ne_nil _ _)
      · obtain rfl : other = exchange :=
          List.singleton_inj.mp (List.append_cancel_left (hcalled.symm.trans hmade))
        exact ⟨before, request, correlationId, after, credential, n, hevents, hmade, hpermits,
          hreply⟩

/-- Whatever the personal instructions are, every prompt of a run begins with the managed part, and
so with the core security contract. -/
theorem managedPrompt_first
    (h : exchange ∈ (RequestIsolation.reached E serde codec events).exchanges) :
    (managedPrompt conversationProfile).toList <+: exchange.request.systemPrompt.toList := by
  obtain ⟨before, request, correlationId, after, credential, n, -, hmade, -, -⟩ := made_by_chat h
  have hhands : Hands E (RequestIsolation.reached E serde codec before) request correlationId
      exchange.request := by
    rw [Hands, hmade, List.map_append, List.map_singleton]
  rw [hhands.eq (sound_reached E serde codec before).linked]
  exact isPrefix_compose _ _

end

/-- The environment whose provider client works over a network, which need not give the same answer
twice, and whose calls may be cancelled. -/
def online (E : Environment) (network : Nat → Transport) (interrupted : Nat → Bool) :
    Environment :=
  { E with complete := fun n provider model credential request =>
      if interrupted n then none
      else some (complete (network n) provider model credential request) }

/-- Every exchange of a run was made by one chat of the run, which made no other, and was permitted
by the tables that this chat found. It was made by the client, and whatever the client sent for it
went to a permitted endpoint of its provider, with the credential of that provider only. -/
theorem egress_guarded {E : Environment} {network : Nat → Transport} {interrupted : Nat → Bool}
    (hurls : ∀ n, Documented (network n).urls) {serde : ScopeCodec} {codec : ArgumentsCodec}
    {events : List Event} {exchange : Exchange}
    (h : exchange ∈ (RequestIsolation.reached (online E network interrupted) serde codec
      events).exchanges) :
    ∃ before request correlationId after credential n,
      let s := RequestIsolation.reached (online E network interrupted) serde codec before
      events = before ++ .chat request correlationId :: after ∧
      (chat (online E network interrupted) request correlationId s).2.exchanges =
        s.exchanges ++ [exchange] ∧
      Permits E.retrieve s.tables request exchange credential ∧
      (exchange.reply = none ∨ exchange.reply = some (complete (network n) exchange.provider
        exchange.model credential exchange.request)) ∧
      ∀ sent, completionRequest (network n) exchange.provider exchange.model credential
          exchange.request = .ok sent →
        Guarded (network n).urls exchange.provider credential "chat/completions" sent := by
  obtain ⟨before, request, correlationId, after, credential, n, hevents, hmade, hpermits,
    hreply⟩ := made_by_chat h
  refine ⟨before, request, correlationId, after, credential, n, hevents, hmade, hpermits, ?_,
    fun sent => completionRequest_guarded (hurls n)⟩
  rw [hreply, online]
  dsimp only
  split
  · exact .inl rfl
  · exact .inr rfl

/-- Nothing answers. -/
def unplugged : Transport where
  urls := twoUrls
  encodeContext _ := some "[]"
  decode _ := none
  send _ := none

/-- A provider that calls itself local and is not. -/
def remote : Domain.Gateway.Provider := providerAt .local "https://api.example.invalid/v1"

/-- A model of it. -/
def remoteTalker : AiModel := { RequestPreview.talker with providerId := remote.id }

/-- A provider, a model of it, and a message. -/
def messageSent : List Event :=
  [.call ⟨.interaction (.updateApplicationSettings impersonal 0), false⟩
      fun _ h => InteractionOperation.noConfusion (Operation.interaction.inj h),
    .call ⟨.interaction (.upsertProvider remote), false⟩
      fun _ h => InteractionOperation.noConfusion (Operation.interaction.inj h),
    .call ⟨.interaction (.upsertModel remoteTalker), false⟩
      fun _ h => InteractionOperation.noConfusion (Operation.interaction.inj h),
    .chat smallTalk "request:1"]

/-- The state in which a message has been sent. -/
def sender : GatewayState :=
  RequestIsolation.reached (online RequestPreview.isolated (fun _ => unplugged) fun _ => false)
    (.listed []) (.listed []) messageSent

theorem egress_guarded_message : ∃ exchange ∈ sender.exchanges, ∃ t request credential,
    Permits RequestPreview.isolated.retrieve t request exchange credential ∧
    ∀ sent, completionRequest unplugged exchange.provider exchange.model credential
        exchange.request = .ok sent →
      Guarded twoUrls exchange.provider credential "chat/completions" sent := by
  have hone : sender.exchanges.length = 1 := by decide +kernel
  obtain ⟨exchange, hexchange⟩ := List.exists_mem_of_length_pos (Nat.lt_of_lt_of_eq Nat.one_pos
    hone.symm)
  obtain ⟨before, request, -, -, credential, -, -, -, hpermits, -, hguarded⟩ :=
    egress_guarded (fun _ => documented_twoUrls) hexchange
  exact ⟨exchange, hexchange, _, request, credential, hpermits, hguarded⟩

end Halquen.Service.Egress
