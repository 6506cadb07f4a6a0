import Halquen.Service.Fallback

/-!
# The preview of a model call

The preview selects a model and projects a context from the tables as they are; when the request is
sent, the same is done after its message has been stored. The selection is the same in both
(`select_previewRoute`). The projections are made from the eight newest messages of the session:
the message of the request takes the place of one of them and is then left out, so that of a long
conversation the call sees seven messages where the preview has eight. `preview_agrees_iff` says
when this makes no difference.
-/

set_option autoImplicit false

namespace Halquen.Service.RequestPreview

open Halquen.Domain.Ids Halquen.Domain.Capability Halquen.Domain.Gateway
open Halquen.Domain.Interaction Halquen.Protocol.Messages
open Halquen.Ai.Context Halquen.Ai.Prompt Halquen.Ai.Router
open Halquen.Library.Action Halquen.Library.Action.Act Halquen.Library.Budget
open Halquen.Library.Ranking Halquen.Library.Sql
open Halquen.Service.Chat (userMessageOf)
open Halquen.Service.ChatParser Halquen.Service.Fallback Halquen.Service.Gateway
open Halquen.Service.State (Failure internalError validation)
open Halquen.Storage.Conversations Halquen.Storage.Interaction Halquen.Storage.Operations
open Halquen.Storage.Providers Halquen.Storage.Sqlite

/-! ## The selection -/

/-- Personal context only rules out a model where the settings do not allow any. -/
theorem eligible_of_personal (settings : ApplicationSettings)
    (providers : List Domain.Gateway.Provider) (request : RouteRequest) (model : AiModel)
    (personal : Bool) (h : personal = true → settings.allowPersonalContext = true)
    (hrequest : request.containsPersonalContext = true → settings.allowPersonalContext = true) :
    eligible settings providers { request with containsPersonalContext := personal } model =
      eligible settings providers request model := by
  have hprivacy : ∀ privacy, privacyAllowed settings privacy personal =
      privacyAllowed settings privacy request.containsPersonalContext := by
    intro privacy
    cases privacy with
    | «local» => rfl
    | cloud =>
        unfold privacyAllowed
        cases hallow : settings.allowPersonalContext with
        | true => simp
        | false =>
            -- Neither request has personal context.
            rw [hallow] at h hrequest
            rw [Bool.eq_false_of_not_eq_true fun hp => Bool.false_ne_true (h hp),
              Bool.eq_false_of_not_eq_true fun hr => Bool.false_ne_true (hrequest hr)]
  unfold eligible
  simp only [hprivacy]

/-- The preview selects what the call selects. -/
theorem select_previewRoute (settings : ApplicationSettings)
    (providers : List Domain.Gateway.Provider) (models : List AiModel) (request : ChatRequest) :
    select settings providers models (previewRoute settings request) =
      select settings providers models (routeRequest settings request.modelSelection) := by
  have heligible : eligible settings providers (previewRoute settings request) =
      eligible settings providers (routeRequest settings request.modelSelection) := by
    funext model
    apply eligible_of_personal settings providers
      (routeRequest settings request.modelSelection) model
    · intro h
      exact (Bool.and_eq_true_iff.mp h).1
    · exact id
  unfold Ai.Router.select
  rw [heligible]
  rfl

/-! ## The projection -/

/-- The messages of a session. -/
def sessionMessages (t : Tables) (id : ChatSessionId) : List ChatMessage :=
  t.database.interaction.chatMessages.filter fun message => message.sessionId == id

/-- The projection of some messages. -/
def project (t : Tables) (messages : List ChatMessage) : ContextProjection :=
  build t.settings.maxContextTokens.toNat (messages.map contextItem)

/-- A message as it stands in a projection. -/
def entry (message : ChatMessage) : ContextItemPayload := (contextItem message).payload

theorem project_items (t : Tables) (messages : List ChatMessage) :
    (project t messages).items = greedy ContextItemPayload.tokens
      (clampTokens t.settings.maxContextTokens.toNat) (messages.map entry) := by
  unfold project
  rw [build_items, @orderBy_of_priority _ 10, List.map_map]
  · rfl
  · intro candidate hcandidate
    obtain ⟨message, -, rfl⟩ := List.mem_map.mp hcandidate
    rfl

/-- The eighth newest message of a session makes no difference in the projection: it does not fit
in the budget, or the messages that are taken after it repeat it until the budget is used up. -/
def OldestRedundant (t : Tables) (messages : List ChatMessage) : Prop :=
  ∃ oldest rest, lastRows ChatMessage.createdAtMs 8 messages = oldest :: rest ∧
    Redundant ContextItemPayload.tokens (entry oldest)
      (clampTokens t.settings.maxContextTokens.toNat) (rest.map entry)

/-- A message that comes to a session at this time displaces none that the preview has projected,
or one that makes no difference. -/
def Undisturbed (t : Tables) (nowMs : Int) (messages : List ChatMessage) : Prop :=
  messages.length < 8 ∨ 8 ≤ messages.countP (fun message => decide (nowMs < message.createdAtMs)) ∨
    OldestRedundant t messages

/-- The preview of a request has the context of the call. -/
def SameContext (t : Tables) (request : ChatRequest) (nowMs : Int) : Prop :=
  ∀ id, t.settings.allowPersonalContext = true → request.sessionId = some id →
    Undisturbed t nowMs (sessionMessages t id)

theorem listChatMessages_eq (t : Tables) (id : ChatSessionId) :
    listChatMessages t.database.interaction id 8 =
      lastRows ChatMessage.createdAtMs 8 (sessionMessages t id) := rfl

/-- No message is in a session that is new. -/
theorem sessionMessages_of_new {t : Tables} {id : ChatSessionId} (hlinked : Linked t)
    (hnew : ∀ other ∈ t.database.interaction.chatSessions, other.id ≠ id) :
    sessionMessages t id = [] := by
  apply List.filter_eq_nil_iff.mpr
  intro message hmessage
  obtain ⟨stored, hstored, hid⟩ := hlinked.exists_session hmessage
  rw [beq_iff_eq, ← hid]
  exact hnew stored hstored

/-- What the call lists, without the message of the request. -/
theorem filter_listChatMessages {E : Environment} {s s' : GatewayState} {request : ChatRequest}
    {session : ChatSession} {userMessage : ChatMessage}
    (h : Received E s request session userMessage s') :
    (listChatMessages s'.tables.database.interaction session.id 8).filter
        (fun message => message.id != userMessage.id) =
      lastRows ChatMessage.createdAtMs
        (if 7 < (sessionMessages s.tables session.id).countP
            (fun message => decide (userMessage.createdAtMs < message.createdAtMs)) then 8 else 7)
        (sessionMessages s.tables session.id) := by
  have hmessages : sessionMessages s'.tables session.id =
      sessionMessages s.tables session.id ++ [userMessage] := by
    obtain ⟨id, hmessage⟩ := h.message
    unfold sessionMessages
    rw [h.messages, List.filter_append]
    have hown : userMessage.sessionId = session.id := by rw [hmessage]; rfl
    rw [List.filter_cons_of_pos (by simpa using hown), List.filter_nil]
  rw [listChatMessages_eq, hmessages]
  apply filter_lastRows_append ChatMessage.createdAtMs (n := 7)
  · simp
  · intro message hmessage
    have hmem := (List.mem_filter.mp hmessage).1
    simpa using h.fresh message hmem

/-- With one message less, the projection is the same exactly if the oldest was redundant. -/
theorem project_lastRows_iff (t : Tables) (messages : List ChatMessage) :
    (project t (lastRows ChatMessage.createdAtMs 8 messages)).items =
        (project t (lastRows ChatMessage.createdAtMs 7 messages)).items ↔
      messages.length < 8 ∨ OldestRedundant t messages := by
  rcases lastRows_succ ChatMessage.createdAtMs 7 messages with ⟨hshort, hsame⟩ |
    ⟨hlong, oldest, hfirst⟩
  · rw [hsame]
    exact iff_of_true rfl (.inl (Nat.lt_succ_of_le hshort))
  · rw [hfirst, project_items, project_items, List.map_cons, greedy_cons_eq_iff]
    constructor
    · intro hredundant
      exact .inr ⟨oldest, _, hfirst, hredundant⟩
    · rintro (hshort | ⟨oldest', rest, hsplit, hredundant⟩)
      · omega
      · rw [hfirst] at hsplit
        cases hsplit
        exact hredundant

theorem previewContext_agrees_iff {E : Environment} {s s' : GatewayState} {request : ChatRequest}
    {session : ChatSession} {userMessage : ChatMessage} (hlinked : Linked s.tables)
    (h : Received E s request session userMessage s') :
    (previewContext s.tables request).items = (recentContext s'.tables session userMessage).items ↔
      SameContext s.tables request userMessage.createdAtMs := by
  have hsettings := h.same.settings
  unfold recentContext previewContext
  rw [hsettings]
  cases hallow : s.tables.settings.allowPersonalContext with
  -- Without personal context both are empty.
  | false =>
      refine iff_of_true rfl fun id hallowed => ?_
      rw [hallow] at hallowed
      cases hallowed
  | true =>
      simp only [if_true]
      rw [filter_listChatMessages h]
      -- The session of the request is known, or it is a new one without messages.
      rcases h.session with hsession | ⟨hnone, hnew⟩
      · rw [hsession]
        change (project s.tables (lastRows ChatMessage.createdAtMs 8
            (sessionMessages s.tables session.id))).items =
          (project s.tables _).items ↔ _
        have hcondition : SameContext s.tables request userMessage.createdAtMs ↔
            Undisturbed s.tables userMessage.createdAtMs (sessionMessages s.tables session.id) := by
          constructor
          · exact fun hall => hall session.id hallow hsession
          · intro hone id _ hid
            rw [hsession] at hid
            cases hid
            exact hone
        rw [hcondition]
        unfold Undisturbed
        split
        · rename_i hlater
          exact iff_of_true rfl (.inr (.inl hlater))
        · rename_i hlater
          -- The window of eight messages moves by the new message.
          rw [project_lastRows_iff]
          constructor
          · rintro (hshort | hredundant)
            · exact .inl hshort
            · exact .inr (.inr hredundant)
          · rintro (hshort | hlate | hredundant)
            · exact .inl hshort
            · omega
            · exact .inr hredundant
      · rw [sessionMessages_of_new hlinked hnew, hnone]
        refine iff_of_true ?_ fun id _ hid => ?_
        · rfl
        · rw [hnone] at hid
          cases hid

/-- The links between messages and sessions need not be assumed: they hold of all tables that the
operations of the database reach. -/
theorem previewContext_agrees_of_reached {serde : Storage.Grants.ScopeCodec}
    {codec : Storage.Agents.ArgumentsCodec} {calls : List Call} {E : Environment}
    {s s' : GatewayState} {request : ChatRequest} {session : ChatSession}
    {userMessage : ChatMessage} (hreached : s.tables = reached serde codec calls)
    (h : Received E s request session userMessage s') :
    (previewContext s.tables request).items = (recentContext s'.tables session userMessage).items ↔
      SameContext s.tables request userMessage.createdAtMs :=
  previewContext_agrees_iff (hreached ▸ linked_reached serde codec calls) h

/-! ## The request -/

/-- The request, if it is sent, comes to the AI fallback, which prepares a call or finds no model.
The request is received, no local intent and no cached response resolves it. -/
structure Reaches (E : Environment) (s : GatewayState) (request : ChatRequest)
    (correlationId : String) (session : ChatSession) (userMessage : ChatMessage)
    (outcome : Except RouteError Prepared) : Prop where
  steps : ∃ s₁ s₂ s₃ s₄,
    receive E request correlationId s = (.ok (session, userMessage), s₁) ∧
    resolveLocal E.texts userMessage.content.toList = some none ∧
    cachedAnswer E userMessage s₁ = (.ok none, s₂) ∧
    activity E session.id correlationId .cacheMiss "No reusable local response matched" none s₂ =
      (.ok (), s₃) ∧
    prepare E request.modelSelection session userMessage s₃ = (.ok outcome, s₄)

/-- What such a request does is the work of the fallback. -/
theorem Reaches.chat_eq {E : Environment} {s : GatewayState} {request : ChatRequest}
    {correlationId : String} {session : ChatSession} {userMessage : ChatMessage}
    {outcome : Except RouteError Prepared}
    (h : Reaches E s request correlationId session userMessage outcome) :
    ∃ s₃ s₄, prepare E request.modelSelection session userMessage s₃ = (.ok outcome, s₄) ∧
      chat E request correlationId s = (do
        let result ← aiFallback E request.modelSelection session userMessage correlationId
        return ChatOutcome.answered result : Gateway.Operation ChatOutcome) s₃ := by
  obtain ⟨s₁, s₂, s₃, s₄, hreceive, hlocal, hcached, hactivity, hprepare⟩ := h.steps
  refine ⟨s₃, s₄, hprepare, ?_⟩
  unfold chat
  rw [bind_of_ok hreceive]
  dsimp only
  rw [hlocal]
  change (respond E request.modelSelection session userMessage correlationId >>= fun result =>
    pure (ChatOutcome.answered result)) s₁ = _
  unfold respond
  rw [bind_assoc, bind_of_ok hcached]
  dsimp only
  rw [bind_assoc, bind_of_ok hactivity]

/-- The steps of such a request, each from where the one before it ends. -/
theorem Reaches.of_outcomes {E : Environment} {s : GatewayState} {request : ChatRequest}
    {correlationId : String} {session : ChatSession} {userMessage : ChatMessage}
    {outcome : Except RouteError Prepared}
    (hreceive : (receive E request correlationId s).1 = .ok (session, userMessage))
    (hlocal : resolveLocal E.texts userMessage.content.toList = some none)
    (hcached : (cachedAnswer E userMessage (receive E request correlationId s).2).1 = .ok none)
    (hactivity : (activity E session.id correlationId .cacheMiss
      "No reusable local response matched" none
      (cachedAnswer E userMessage (receive E request correlationId s).2).2).1 = .ok ())
    (hprepare : (prepare E request.modelSelection session userMessage
      (activity E session.id correlationId .cacheMiss "No reusable local response matched" none
        (cachedAnswer E userMessage (receive E request correlationId s).2).2).2).1 = .ok outcome) :
    Reaches E s request correlationId session userMessage outcome := by
  exact ⟨_, _, _, _, eq_of_outcome hreceive, hlocal, eq_of_outcome hcached,
    eq_of_outcome hactivity, eq_of_outcome hprepare⟩

/-- The categories that a preview shows for a projected context. -/
def shownCategories (context : List ContextItemPayload) : List ContextCategory :=
  .currentRequest :: (if context.isEmpty then [] else [.recentConversation])

/-- The estimate that a preview shows for a message and a projected context. -/
def shownTokens (message : String) (contextTokens : Nat) : Nat :=
  saturatingAddU32 (estimateTokens message) contextTokens

/-- What the preview returns is about the call: it names the provider and model of the call, its
estimate and its categories are those of the context in the call, and the context that it projects
has the same items in the same order. -/
def PreviewAgrees (t : Tables) (request : ChatRequest) (outcome : Except RouteError Prepared) :
    Prop :=
  ∃ preview, previewAiRequest t request = .ok preview ∧
    match outcome with
    | .error _ => preview.providerId = none ∧ preview.modelId = none
    | .ok prepared => preview.providerId = some prepared.selected.providerId ∧
        preview.modelId = some prepared.selected.modelId ∧
        preview.estimatedContextTokens =
          shownTokens request.message prepared.projection.estimatedTokens ∧
        preview.contextCategories = shownCategories prepared.request.context ∧
        (previewContext t request).items = prepared.request.context ∧
        (previewContext t request).estimatedTokens = prepared.projection.estimatedTokens

/-- A model is eligible for the request. -/
def Selects (t : Tables) (selection : ModelSelection) : Prop :=
  ∃ providers selected, listProviders t.providers = .ok providers ∧
    Ai.Router.select t.settings providers (listModels t.models)
      (routeRequest t.settings selection) = .ok selected

/-- What the preview returns for a request that it accepts: the selection of the call, and the
estimate and the categories of the context that it projects. -/
theorem previewAiRequest_eq {t : Tables} {request : ChatRequest}
    {providers : List Domain.Gateway.Provider}
    (hproviders : listProviders t.providers = .ok providers)
    (hblank : isBlank request.message = false) (hlength : request.message.utf8ByteSize ≤ 16384) :
    ∃ preview, previewAiRequest t request = .ok preview ∧
      preview.providerId = (Ai.Router.select t.settings providers (listModels t.models)
        (routeRequest t.settings request.modelSelection)).toOption.map SelectedModel.providerId ∧
      preview.modelId = (Ai.Router.select t.settings providers (listModels t.models)
        (routeRequest t.settings request.modelSelection)).toOption.map SelectedModel.modelId ∧
      preview.estimatedContextTokens =
        shownTokens request.message (previewContext t request).estimatedTokens ∧
      preview.contextCategories = shownCategories (previewContext t request).items := by
  have hvalid : (isBlank request.message || decide (16384 < request.message.utf8ByteSize)) =
      false := by
    rw [hblank, Bool.false_or]
    exact decide_eq_false (Nat.not_lt.mpr hlength)
  unfold previewAiRequest
  rw [hvalid, hproviders, ← select_previewRoute]
  exact ⟨_, rfl, rfl, rfl, rfl, rfl⟩

theorem previewAiRequest_of_long {t : Tables} {request : ChatRequest}
    (hlength : 16384 < request.message.utf8ByteSize) (preview : PromptPreview) :
    previewAiRequest t request ≠ .ok preview := by
  have hvalid : (isBlank request.message || decide (16384 < request.message.utf8ByteSize)) =
      true := by
    rw [decide_eq_true hlength, Bool.or_true]
  unfold previewAiRequest
  rw [hvalid]
  intro h
  cases h

/-- A message that is blank is empty once it is trimmed. -/
theorem isBlank_of_trim {message : String}
    (h : String.ofList (trim message.toList) ≠ "") : isBlank message = false := by
  rw [← Bool.not_eq_true]
  intro hblank
  apply h
  have hall : ∀ c ∈ message.toList, isWhiteSpace c = true := List.all_eq_true.mp hblank
  have htrim : trim message.toList = [] := by
    unfold trim trimMatches
    rw [List.dropWhile_eq_nil_iff.mpr hall]
    rfl
  rw [htrim]

/-- No model is selected: the preview agrees if it accepts the request. -/
theorem previewAgrees_error_iff {t : Tables} {request : ChatRequest} {e : RouteError}
    {providers : List Domain.Gateway.Provider}
    (hproviders : listProviders t.providers = .ok providers)
    (hselect : Ai.Router.select t.settings providers (listModels t.models)
      (routeRequest t.settings request.modelSelection) = .error e)
    (hblank : isBlank request.message = false) :
    PreviewAgrees t request (.error e) ↔ request.message.utf8ByteSize ≤ 16384 := by
  constructor
  · rintro ⟨preview, hpreview, -⟩
    by_contra hlong
    exact previewAiRequest_of_long (Nat.not_le.mp hlong) preview hpreview
  · intro hlength
    obtain ⟨preview, hpreview, hprovider, hmodel, -, -⟩ :=
      previewAiRequest_eq hproviders hblank hlength
    rw [hselect] at hprovider hmodel
    exact ⟨preview, hpreview, hprovider, hmodel⟩

/-- A model is selected: the items of the two projections are to be the same. -/
theorem previewAgrees_ok_iff {t : Tables} {request : ChatRequest} {prepared : Prepared}
    {providers : List Domain.Gateway.Provider}
    (hproviders : listProviders t.providers = .ok providers)
    (hselect : Ai.Router.select t.settings providers (listModels t.models)
      (routeRequest t.settings request.modelSelection) = .ok prepared.selected)
    (hcontext : prepared.request.context = prepared.projection.items)
    (hestimate : prepared.projection.estimatedTokens =
      (prepared.projection.items.map ContextItemPayload.tokens).sum)
    (hblank : isBlank request.message = false) :
    PreviewAgrees t request (.ok prepared) ↔ request.message.utf8ByteSize ≤ 16384 ∧
      (previewContext t request).items = prepared.projection.items := by
  constructor
  · rintro ⟨preview, hpreview, -, -, -, -, hitems, -⟩
    refine ⟨?_, hitems.trans hcontext⟩
    by_contra hlong
    exact previewAiRequest_of_long (Nat.not_le.mp hlong) preview hpreview
  · rintro ⟨hlength, hitems⟩
    obtain ⟨preview, hpreview, hprovider, hmodel, hshown, hcategories⟩ :=
      previewAiRequest_eq hproviders hblank hlength
    rw [hselect] at hprovider hmodel
    have htokens : (previewContext t request).estimatedTokens =
        prepared.projection.estimatedTokens := by
      rw [hestimate, ← hitems]
      exact build_estimatedTokens _ _
    rw [htokens] at hshown
    rw [hitems.trans hcontext.symm] at hcategories
    exact ⟨preview, hpreview, hprovider, hmodel, hshown, hcategories, hitems.trans hcontext.symm,
      htokens⟩

/-- The preview agrees with the call exactly if the whole message is within the bound of the
preview and, where a model is called at all, the message displaces nothing from the context. -/
theorem preview_agrees_iff {E : Environment} {s : GatewayState} {request : ChatRequest}
    {correlationId : String} {session : ChatSession} {userMessage : ChatMessage}
    {outcome : Except RouteError Prepared} (hlinked : Linked s.tables)
    (h : Reaches E s request correlationId session userMessage outcome) :
    PreviewAgrees s.tables request outcome ↔
      request.message.utf8ByteSize ≤ 16384 ∧
        (Selects s.tables request.modelSelection →
          SameContext s.tables request (E.clock s.consulted)) := by
  obtain ⟨s₁, s₂, s₃, s₄, hreceive, -, hcached, hactivity, hprepare⟩ := h.steps
  have hreceived : Received E s request session userMessage s₁ :=
    (receive_spec E request correlationId s).of_eq hreceive
  obtain rfl := (cachedAnswer_spec E userMessage s₁).of_eq hcached
  obtain ⟨event, rfl⟩ := (activity_spec E _ _ _ _ _ s₂).of_eq hactivity
  obtain ⟨-, -, houtcome⟩ := (prepare_spec E _ _ _ _).of_eq hprepare
  -- The activity is not among what the preparation reads, and the message only in the history.
  have htables : (withActivity event s₂.tables).settings = s.tables.settings ∧
      (withActivity event s₂.tables).providers = s.tables.providers ∧
      (withActivity event s₂.tables).models = s.tables.models :=
    ⟨hreceived.same.settings, hreceived.same.providers, hreceived.same.models⟩
  obtain ⟨hsettings, hproviders', hmodels⟩ := htables
  obtain ⟨id, hmessage⟩ := hreceived.message
  have hclock : userMessage.createdAtMs = E.clock s.consulted := by rw [hmessage]; rfl
  -- A message that was received is not blank, so the preview goes on.
  have hblank : isBlank request.message = false := by
    apply isBlank_of_trim
    have hnonempty := (Bool.and_eq_true_iff.mp hreceived.length).1
    rw [hmessage] at hnonempty
    exact bne_iff_ne.mp hnonempty
  rw [← hclock]
  cases outcome with
  -- Nothing is selected, for the preview as for the request.
  | error e =>
      obtain ⟨providers, hproviders, hselect⟩ := houtcome
      rw [hproviders'] at hproviders
      rw [hsettings, hmodels] at hselect
      rw [previewAgrees_error_iff hproviders hselect hblank]
      have hnone : ¬ Selects s.tables request.modelSelection := by
        rintro ⟨providers', selected, hlisted, hselected⟩
        rw [hproviders] at hlisted
        cases hlisted
        rw [hselect] at hselected
        cases hselected
      exact (and_iff_left fun hselected => absurd hselected hnone).symm
  -- Both select the same model, and the projections are compared.
  | ok prepared =>
      obtain ⟨⟨providers, hproviders, hselect, -⟩, -, hprojection, hrequest⟩ := houtcome
      rw [hproviders'] at hproviders
      rw [hsettings, hmodels] at hselect
      have hestimate : prepared.projection.estimatedTokens =
          (prepared.projection.items.map ContextItemPayload.tokens).sum := by
        rw [hprojection]
        exact build_estimatedTokens _ _
      rw [previewAgrees_ok_iff hproviders hselect (by rw [hrequest]; rfl) hestimate hblank,
        hprojection]
      change _ ∧ (previewContext s.tables request).items =
        (recentContext s₂.tables session userMessage).items ↔ _
      rw [previewContext_agrees_iff hlinked hreceived]
      have hsome : Selects s.tables request.modelSelection := ⟨providers, _, hproviders, hselect⟩
      exact and_congr_right fun _ => ⟨fun hsame _ => hsame, fun hsame => hsame hsome⟩

/-! ## A short and a long conversation -/

/-- A world in which no provider answers. -/
def isolated : Environment where
  texts := ⟨List.map Char.toLower, Char.isAlphanum⟩
  clock _ := 100
  stamp n := ⟨0, 0, Fin.ofNat _ n⟩
  elapsedMs _ := 0
  retrieve _ _ := .error .notFound
  cancelled _ := false
  complete _ _ _ _ _ := none

/-- A provider on this computer. -/
def hosted : Domain.Gateway.Provider where
  id := .generate .provider ⟨0, 0, 0⟩
  kind := .ollama
  name := "Ollama"
  baseUrl := "http://localhost:11434"
  enabled := true
  privacy := .local
  configured := true
  credentialId := none
  status := .configured
  createdAtMs := 0
  updatedAtMs := 0

/-- A model of it. -/
def talker : AiModel where
  id := .generate .model ⟨0, 0, 0⟩
  providerId := hosted.id
  displayName := "Talker"
  providerModelId := "talker"
  enabled := true
  contextLimit := none
  privacy := .local
  priority := 0
  taskEligibility := [.conversation]
  isDefault := true

/-- A conversation. -/
def dialogueSession : ChatSession := ⟨.generate .chatSession ⟨0, 0, 0⟩, "Dialogue", 0, 0⟩

/-- One message of it. -/
def turn (n : Nat) : ChatMessage :=
  userMessageOf (.generate .chatMessage ⟨0, 1, Fin.ofNat _ n⟩) dialogueSession.id
    ("Turn " ++ toString n) n

/-- Settings that permit personal context. -/
def personal : ApplicationSettings :=
  { ApplicationSettings.default with allowPersonalContext := true, preferCachedLocal := false }

/-- A session with this many messages, whose projection is allowed, and one model. -/
def dialogue (turns : Nat) : GatewayState where
  tables := { Tables.empty with
    settings := personal
    providers := [.ofProvider hosted]
    models := [talker]
    database := { Database.empty with
      interaction := { InteractionTables.empty with
        chatSessions := [dialogueSession]
        chatMessages := (List.range turns).map turn } } }
  consulted := 0
  exchanges := []

/-- A question in this conversation. -/
def question : ChatRequest := ⟨some dialogueSession.id, "How are you?", .automatic⟩

/-- The question as it is stored. -/
def questionMessage : ChatMessage :=
  userMessageOf (.generate .chatMessage ⟨0, 0, 2⟩) dialogueSession.id "How are you?" 100

/-- The call that answers the question, with this history. -/
def questionCall (history : List ChatMessage) : Prepared :=
  let projection := build 8192 (history.map contextItem)
  { provider := hosted
    model := talker
    credential := none
    selected := ⟨hosted.id, talker.id, "automatic_deterministic_route"⟩
    projection
    request := requestOf personal questionMessage projection }

theorem linked_dialogue (turns : Nat) : Linked (dialogue turns).tables := by
  intro id hid
  obtain ⟨message, hmessage, rfl⟩ := List.mem_map.mp hid
  obtain ⟨n, -, rfl⟩ := List.mem_map.mp hmessage
  exact List.mem_singleton_self _

/-- Two turns are both in the preview and in the call. -/
theorem preview_agrees_short :
    PreviewAgrees (dialogue 2).tables question (.ok (questionCall [turn 0, turn 1])) := by
  have hreaches : Reaches isolated (dialogue 2) question "request" dialogueSession questionMessage
      (.ok (questionCall [turn 0, turn 1])) := by
    apply Reaches.of_outcomes <;> decide +kernel
  have hsame : SameContext (dialogue 2).tables question 100 := by
    intro id _ hid
    cases hid
    exact .inl (by decide +kernel)
  exact (preview_agrees_iff (linked_dialogue 2) hreaches).mpr
    ⟨by decide, fun _ => hsame⟩

/-- Of eight turns the preview has the first, which the call does not see. -/
theorem preview_disagrees_long :
    Linked (dialogue 8).tables ∧
      Reaches isolated (dialogue 8) question "request" dialogueSession questionMessage
        (.ok (questionCall ((List.range' 1 7).map turn))) ∧
      ¬ PreviewAgrees (dialogue 8).tables question
        (.ok (questionCall ((List.range' 1 7).map turn))) := by
  refine ⟨linked_dialogue 8, ?_, ?_⟩
  · apply Reaches.of_outcomes <;> decide +kernel
  · rintro ⟨preview, hpreview, -, -, hshown, -, -, -⟩
    -- The first turn is counted in the estimate of the preview.
    have hlonger : (previewAiRequest (dialogue 8).tables question).toOption.map
        PromptPreview.estimatedContextTokens ≠ some (shownTokens question.message
          (questionCall ((List.range' 1 7).map turn)).projection.estimatedTokens) := by
      decide +kernel
    rw [hpreview] at hlonger
    exact hlonger (congrArg some hshown)

end Halquen.Service.RequestPreview
