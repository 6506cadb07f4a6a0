import Halquen.Service.ModelCalls
import Halquen.Storage.CacheReuse

/-!
# Isolation of sessions

Whatever a database holds of other conversations, of memory, of usage and of grants, a chat hands
the same request to the provider client: without personal context it depends on the settings and
the message only, with it also on the newest messages of the same session. The cache adds nothing
to this. Over every run of chats and other operations, a row of the cache is the answer to a request
that had no context (`Sound`), so that a cached answer tells a session nothing of another one.
-/

set_option autoImplicit false

namespace Halquen.Service.RequestIsolation

open Halquen.Domain.Ids Halquen.Domain.Capability Halquen.Domain.Gateway
open Halquen.Domain.Interaction Halquen.Protocol.Messages
open Halquen.Ai.Context Halquen.Ai.Prompt Halquen.Ai.Provider Halquen.Ai.Router
open Halquen.Library.Action Halquen.Library.Action.Act Halquen.Library.Run Halquen.Library.Sql
open Halquen.Service.ChatParser Halquen.Service.Fallback Halquen.Service.Gateway
open Halquen.Service.ModelCalls
open Halquen.Service.State (Failure)
open Halquen.Storage.Agents Halquen.Storage.CacheReuse Halquen.Storage.Conversations
open Halquen.Storage.Grants Halquen.Storage.Interaction Halquen.Storage.Operations
open Halquen.Storage.ResponseCache Halquen.Storage.Sqlite

/-! ## Rows of the cache -/

/-- Every row has the request and the response of a row that was there before. -/
def Echoes (rows rows' : List CacheRow) : Prop :=
  ∀ row ∈ rows', ∃ old ∈ rows, row.response = old.response ∧
    row.normalizedRequest = old.normalizedRequest

theorem echoes_refl (rows : List CacheRow) : Echoes rows rows :=
  fun row hrow => ⟨row, hrow, rfl, rfl⟩

/-- Responses that echo older ones echo the oldest. -/
theorem Echoes.trans {rows rows' rows'' : List CacheRow} (h : Echoes rows rows')
    (h' : Echoes rows' rows'') : Echoes rows rows'' := by
  intro row hrow
  obtain ⟨old, hold, hresponse, hrequest⟩ := h' row hrow
  obtain ⟨first, hfirst, hresponse', hrequest'⟩ := h old hold
  exact ⟨first, hfirst, hresponse.trans hresponse', hrequest.trans hrequest'⟩

/-- A statement that changes neither the request nor the response of a row. -/
theorem echoes_map {rows : List CacheRow} {set : CacheRow → CacheRow}
    (hset : ∀ row, (set row).response = row.response ∧
      (set row).normalizedRequest = row.normalizedRequest) : Echoes rows (rows.map set) := by
  intro row hrow
  obtain ⟨old, hold, rfl⟩ := List.mem_map.mp hrow
  exact ⟨old, hold, hset old⟩

/-- An update that leaves request and response alone invents none. -/
theorem echoes_updateRows {rows : List CacheRow} {cond : CacheRow → Truth}
    {set : CacheRow → CacheRow}
    (hset : ∀ row, (set row).response = row.response ∧
      (set row).normalizedRequest = row.normalizedRequest) :
    Echoes rows (updateRows cond set rows) := by
  unfold updateRows
  apply echoes_map
  intro row
  split
  · exact hset row
  · exact ⟨rfl, rfl⟩

/-- The cache of the database has no new request or response. -/
def EchoesCache (t t' : Tables) : Prop := Echoes t.responseCache t'.responseCache

instance EchoesCache.isPreorder : IsPreorder Tables EchoesCache where
  refl t := echoes_refl t.responseCache
  trans _ _ _ := Echoes.trans

theorem echoesCache_of_same {t t' : Tables} (h : Same Tables.responseCache t t') :
    EchoesCache t t' := by
  unfold EchoesCache
  rw [show t'.responseCache = t.responseCache from h]
  exact echoes_refl t.responseCache

/-! ## Operations that store no candidate -/

theorem echoes_applyResponseFeedback (id : CacheEntryId) (feedback : ResponseFeedback)
    (t : CacheTables) :
    Post (applyResponseFeedback id feedback) t fun _ t' =>
      Echoes t.responseCache t'.responseCache := by
  simp only [applyResponseFeedback, post_bind, post_gets, next_ok, post_modify, post_require]
  have hjudged : Echoes t.responseCache (updateRows (withId id)
      (CacheRow.feedback (feedbackEffect feedback)) t.responseCache) :=
    echoes_updateRows fun _ => ⟨rfl, rfl⟩
  exact ⟨fun _ => hjudged, fun _ => hjudged⟩

theorem echoes_recordCacheHit (id : CacheEntryId) (nowMs : Int) (estimatedTokensAvoided : UInt64)
    (t : CacheTables) :
    Post (recordCacheHit id nowMs estimatedTokensAvoided) t fun _ t' =>
      Echoes t.responseCache t'.responseCache := by
  simp only [recordCacheHit, post_bind, post_require, next_ok, next_error, post_transaction,
    post_gets, post_modify]
  refine ⟨fun _ => ⟨fun _ => ?_, fun _ => echoes_refl _⟩, fun _ => echoes_refl _⟩
  exact echoes_updateRows fun _ => ⟨rfl, rfl⟩

/-- Removing a provider invents no response. -/
theorem echoes_deleteProvider (id : ProviderId) : Keeps EchoesCache (deleteProvider id) := by
  intro t
  have hpost : Post (deleteProvider id) t fun _ t' => EchoesCache t t' := by
    simp only [deleteProvider, post_bind, post_gets, next_ok, post_modify]
    split
    · exact echoes_refl _
    · exact echoes_map fun _ => ⟨rfl, rfl⟩
  exact hpost

/-- Only one operation stores a response. -/
theorem echoes_interaction {operation : InteractionOperation}
    (hother : ∀ entry, operation ≠ .storeResponseCandidate entry) :
    Keeps EchoesCache operation.perform := by
  have hsame : Keeps (Same Tables.responseCache) operation.perform →
      Keeps EchoesCache operation.perform := fun h => h.mono fun _ _ => echoesCache_of_same
  cases operation with
  | updateApplicationSettings settings nowMs =>
      exact hsame <| (keeps_ofExcept _).bind fun _ => (keeps_require _ _).bind fun _ =>
        keeps_modify fun _ => rfl
  | upsertProvider provider => exact hsame fun _ => rfl
  | removeProvider id => exact echoes_deleteProvider id
  | upsertModel model =>
      exact hsame <| (keeps_require _ _).bind fun _ => (keeps_gets fun t => t).bind fun _ =>
        (keeps_require _ _).bind fun _ => keeps_modify fun _ => rfl
  | ensureChatSession requested title nowMs fresh => exact hsame (keeps_discardValue fun _ => rfl)
  | appendChatMessage message =>
      exact hsame <| Keeps.transaction <| (keeps_gets fun t => t).bind fun _ =>
        Keeps.bind (fun _ => rfl) fun _ => keeps_require _ _
  | appendActivity event => exact hsame fun _ => rfl
  | storeResponseCandidate entry => exact absurd rfl (hother entry)
  | recordCacheHit id nowMs estimatedTokensAvoided =>
      exact fun t => echoes_recordCacheHit id nowMs estimatedTokensAvoided (cacheTables t)
  | applyResponseFeedback id feedback =>
      exact fun t => echoes_applyResponseFeedback id feedback (cacheTables t)
  | addUsage delta => exact hsame fun _ => rfl
  | setMemoryState id pinned disabled priorityPermille =>
      exact hsame (keeps_discardValue fun _ => rfl)

theorem keepsCache_runtime (codec : ArgumentsCodec) (operation : RuntimeOperation) :
    Keeps (Same Tables.responseCache) (operation.perform codec) := by
  cases operation with
  | finishDaemonSession id endedAtMs => exact keeps_discardValue fun _ => rfl
  | finishAgentSession id status endedAtMs => exact keeps_discardValue fun _ => rfl
  | _ => exact fun _ => rfl

theorem keepsCache_security (serde : ScopeCodec) (codec : ArgumentsCodec)
    (operation : SecurityOperation) :
    Keeps (Same Tables.responseCache) (operation.perform serde codec) := by
  cases operation with
  | claimPermissionForProposal proposal session agentId nowMs =>
      exact keeps_discardValue fun _ => rfl
  | removeResourceLabel id => exact keeps_discardValue fun _ => rfl
  | removeAgent id => exact keeps_discardValue fun _ => rfl
  | _ => exact fun _ => rfl

theorem keepsCache_queue (operation : QueueOperation) :
    Keeps (Same Tables.responseCache) operation.perform := by
  cases operation <;> exact fun _ => rfl

theorem echoes_operation (serde : ScopeCodec) (codec : ArgumentsCodec) {operation : Operation}
    (hother : ∀ entry, operation ≠ .interaction (.storeResponseCandidate entry)) :
    Keeps EchoesCache (operation.perform serde codec) := by
  cases operation with
  | interaction operation =>
      exact echoes_interaction fun entry heq => hother entry (congrArg _ heq)
  | runtime operation =>
      exact (keepsCache_runtime codec operation).mono fun _ _ => echoesCache_of_same
  | security operation =>
      exact (keepsCache_security serde codec operation).mono fun _ _ => echoesCache_of_same
  | queue operation =>
      exact (keepsCache_queue operation).mono fun _ _ => echoesCache_of_same
  | appendAudit record => exact fun t => echoes_refl t.responseCache
  | recordExecution receipt records => exact fun t => echoes_refl t.responseCache
  | persistMemoryRevision fails auditId item revision evidence =>
      exact fun t => echoes_refl t.responseCache

/-- So this holds of every other call. -/
theorem echoes_call (serde : ScopeCodec) (codec : ArgumentsCodec) {call : Call}
    (hother : ∀ entry, call.operation ≠ .interaction (.storeResponseCandidate entry)) :
    Keeps EchoesCache (call.perform serde codec) :=
  (keeps_require _ _).bind fun _ => echoes_operation serde codec hother

/-! ## What the cache rests on -/

/-- The row is what a model answered to a request that had no context. Such a request is made of the
settings and of one message. -/
def Contextless (E : Environment) (exchanges : List Exchange) (row : CacheRow) : Prop :=
  ∃ exchange ∈ exchanges, ∃ settings message response,
    exchange.request = requestWith settings message [] ∧ exchange.request.context = [] ∧
    exchange.reply = some (.ok response) ∧ row.response = response.content ∧
    row.normalizedRequest = String.ofList (normalizeRequest E.texts message.toList)

/-- What holds of the service after any run. -/
structure Sound (E : Environment) (s : GatewayState) : Prop where
  linked : Linked s.tables
  contextless : ∀ row ∈ s.tables.responseCache, Contextless E s.exchanges row

/-- A sound state stays sound. -/
def Preserves (E : Environment) (s s' : GatewayState) : Prop := Sound E s → Sound E s'

instance Preserves.isPreorder (E : Environment) : IsPreorder GatewayState (Preserves E) where
  refl _ := id
  trans _ _ _ h h' := h' ∘ h

section

variable {E : Environment} {α : Type} {s : GatewayState}

/-- Tables whose messages have sessions and whose cache has nothing new. -/
theorem Sound.of_echoes (h : Sound E s) {t : Tables} (hlinked : Linked t)
    (hechoes : EchoesCache s.tables t) : Sound E { s with tables := t } := by
  refine ⟨hlinked, fun row hrow => ?_⟩
  obtain ⟨old, hold, hresponse, hrequest⟩ := hechoes row hrow
  obtain ⟨exchange, hexchange, settings, message, response, hof, hempty, hreply, hanswer, hkey⟩ :=
    h.contextless old hold
  exact ⟨exchange, hexchange, settings, message, response, hof, hempty, hreply,
    hresponse.trans hanswer, hrequest.trans hkey⟩

/-- A call of a model keeps the stored responses explained. -/
theorem Sound.exchanged (h : Sound E s) (prepared : Prepared)
    (reply : Option (Except AiError AiResponse)) : Sound E (exchanged prepared reply s) where
  linked := h.linked
  contextless row hrow := by
    obtain ⟨exchange, hexchange, hrest⟩ := h.contextless row hrow
    exact ⟨exchange, List.mem_append_left _ hexchange, hrest⟩

theorem preserves_steps : KeptBySteps (Preserves E) where
  consult _ _ h := ⟨h.linked, h.contextless⟩
  read _ _ h := ⟨h.linked, h.contextless⟩
  perform hother s h :=
    h.of_echoes (linked_interaction h.linked _) (echoes_interaction hother s.tables)
  session requested title nowMs fresh s h := by
    apply h.of_echoes
    · have hlinked := h.linked.ensureChatSession requested title nowMs fresh
      rwa [InteractionOperation.perform, discardValue, state_map] at hlinked
    · exact echoes_refl _

/-! ## The candidate -/

/-- A candidate is a new row, which the exchange answers for. -/
theorem Sound.store (h : Sound E s) {prepared : Prepared} {userMessage : ChatMessage}
    {response : AiResponse} {settings : ApplicationSettings}
    (hexchange : ⟨prepared.provider, prepared.model, prepared.request, some (.ok response)⟩ ∈
      s.exchanges)
    (hrequest : prepared.request = requestWith settings userMessage.content [])
    (id : CacheEntryId) (createdAtMs : Int) :
    Sound E { s with tables := ((InteractionOperation.storeResponseCandidate
      (responseCandidate E id prepared userMessage response createdAtMs)).perform
        s.tables).2 } := by
  refine ⟨linked_interaction h.linked _, ?_⟩
  have hpost : Post (InteractionOperation.storeResponseCandidate
      (responseCandidate E id prepared userMessage response createdAtMs)).perform s.tables
      fun _ t => ∀ row ∈ t.responseCache, Contextless E s.exchanges row := by
    rw [InteractionOperation.perform, post_bind, post_gets, next_ok, onCache, post_within]
    refine Post.mono (store_cases _ _ rfl) ?_
    rintro r cache (⟨e, -, rfl⟩ | ⟨-, heffect⟩)
    · exact h.contextless
    · cases heffect
      apply forall_stored
      · exact fun row hrow _ => h.contextless row hrow
      · refine ⟨_, hexchange, settings, userMessage.content, response, hrequest, ?_, rfl, rfl, rfl⟩
        rw [hrequest]
        rfl
  exact hpost

/-- A response is stored under the request that it answers. -/
theorem preserves_keepCandidate {prepared : Prepared} {userMessage : ChatMessage}
    {response : AiResponse} {settings : ApplicationSettings}
    (hexchange : ⟨prepared.provider, prepared.model, prepared.request, some (.ok response)⟩ ∈
      s.exchanges)
    (hrequest : prepared.request = requestOf settings userMessage prepared.projection) :
    Post (keepCandidate E prepared userMessage response) s fun _ s' => Preserves E s s' := by
  unfold keepCandidate
  rw [post_ite]
  constructor
  · intro hempty
    have hwithout : prepared.request = requestWith settings userMessage.content [] := by
      rw [hrequest, requestOf, List.isEmpty_iff.mp hempty]
      rfl
    rw [post_bind, post_now, next_ok, post_bind, post_generate, next_ok, post_bind]
    refine Post.mono (Q := fun _ s' => Preserves E s s') ?_ ?_
    · intro h
      exact Sound.store (s := { s with consulted := s.consulted + 1 + 1 })
        ⟨h.linked, h.contextless⟩ hexchange hwithout _ _
    · rintro (e | u) s' hs'
      · exact hs'
      · exact hs'
  · intro _
    exact refl_of (Preserves E) s

/-- The prepared request was made of some settings, of the message and of the projection. -/
def MadeFor (userMessage : ChatMessage) (prepared : Prepared) : Prop :=
  ∃ settings, prepared.request = requestOf settings userMessage prepared.projection

/-- An answer keeps the state sound. -/
theorem preserves_answerReply {prepared : Prepared} {userMessage : ChatMessage}
    (hmade : MadeFor userMessage prepared) (session : ChatSession) (correlationId : String)
    (reply : Option (Except AiError AiResponse)) (s : GatewayState) :
    Post (answerReply E prepared session userMessage correlationId reply)
      (exchanged prepared reply s) fun _ s' => Preserves E s s' := by
  have hexchanged : Preserves E s (exchanged prepared reply s) :=
    fun h => h.exchanged prepared reply
  have hrest : ∀ {m : Gateway.Operation ChatResult}, Keeps (Preserves E) m →
      Post m (exchanged prepared reply s) fun _ s' => Preserves E s s' := fun h =>
    (h.post _).mono fun _ _ => trans_of (Preserves E) hexchanged
  rcases reply with _ | error | response
  · exact hrest (preserves_steps.answerCancelled _ _ _)
  · exact hrest (preserves_steps.answerFailed _ _ _ _)
  · obtain ⟨settings, hrequest⟩ := hmade
    have hcandidate : Post (keepCandidate E prepared userMessage response)
        (exchanged prepared (some (.ok response)) s)
        fun _ s' => Preserves E (exchanged prepared (some (.ok response)) s) s' :=
      preserves_keepCandidate (List.mem_append_right _ (List.mem_singleton_self _)) hrequest
    exact (preserves_steps.answerCompleted hcandidate session correlationId).mono
      fun _ _ => trans_of (Preserves E) hexchanged

theorem preserves_answerCall {prepared : Prepared} {userMessage : ChatMessage}
    (hmade : MadeFor userMessage prepared) (session : ChatSession) (correlationId : String) :
    Keeps (Preserves E) (answerCall E prepared session userMessage correlationId) := by
  rw [answerCall_eq]
  apply Keeps.bind (preserves_steps.activity _ _ _ _ _)
  intro _ s
  change Preserves E s
    ((exchange E prepared >>= answerReply E prepared session userMessage correlationId) s).2
  rcases exchange_cases E prepared s with ⟨-, hexchange⟩ | ⟨reply, -, -, hexchange⟩
  · have hsame : Preserves E s { s with consulted := s.consulted + 1 } :=
      fun h => ⟨h.linked, h.contextless⟩
    rw [bind_of_ok hexchange]
    exact trans_of (Preserves E) hsame
      (preserves_steps.answerCancelled session userMessage correlationId _)
  · rw [bind_of_ok hexchange]
    exact preserves_answerReply hmade session correlationId reply s

theorem preserves_aiFallback (selection : ModelSelection) (session : ChatSession)
    (userMessage : ChatMessage) (correlationId : String) :
    Keeps (Preserves E) (aiFallback E selection session userMessage correlationId) := by
  apply Keeps.bind_of (Q := fun outcome : Except RouteError Prepared => ∀ prepared,
    outcome = .ok prepared → MadeFor userMessage prepared) (preserves_steps.prepare _ _ _)
  · intro s
    refine (prepare_spec E selection session userMessage s).mono ?_
    rintro _ s' ⟨-, -, hprepares⟩ prepared rfl
    exact ⟨s.tables.settings, hprepares.request⟩
  · intro outcome hmade
    cases outcome with
    | error e =>
        exact (preserves_steps.activity _ _ _ _ _).bind fun _ =>
          preserves_steps.answerUnavailable _ _ _
    | ok prepared => exact preserves_answerCall (hmade prepared rfl) session correlationId

theorem preserves_respond (selection : ModelSelection) (session : ChatSession)
    (userMessage : ChatMessage) (correlationId : String) :
    Keeps (Preserves E) (respond E selection session userMessage correlationId) := by
  refine (preserves_steps.cachedAnswer _).bind fun cached => ?_
  cases cached with
  | some entry => exact preserves_steps.answerCached _ _ _ _
  | none =>
      exact (preserves_steps.activity _ _ _ _ _).bind fun _ => preserves_aiFallback _ _ _ _

/-- So does every chat. -/
theorem preserves_chat (request : ChatRequest) (correlationId : String) :
    Keeps (Preserves E) (chat E request correlationId) := by
  refine (preserves_steps.receive request correlationId).bind ?_
  rintro ⟨session, userMessage⟩
  refine (keeps_orThrow _ _).bind fun resolved => ?_
  cases resolved with
  | some intent => exact keeps_pure _
  | none => exact (preserves_respond _ _ _ _).bind fun _ => keeps_pure _

end

/-! ## Runs -/

/-- What happens to the database: a chat, or another call. Candidates are stored by chats only. -/
inductive Event where
  | chat (request : ChatRequest) (correlationId : String)
  | call (call : Call)
      (hother : ∀ entry, call.operation ≠ .interaction (.storeResponseCandidate entry))

/-- What an event does to the state. -/
def step (E : Environment) (serde : ScopeCodec) (codec : ArgumentsCodec) (s : GatewayState) :
    Event → GatewayState
  | .chat request correlationId => (chat E request correlationId s).2
  | .call call _ => { s with tables := (call.perform serde codec s.tables).2 }

/-- The service after these events, from a new database on. -/
def reached (E : Environment) (serde : ScopeCodec) (codec : ArgumentsCodec)
    (events : List Event) : GatewayState :=
  run (step E serde codec) ⟨.empty, 0, []⟩ events

/-- So every reached state is sound. -/
theorem sound_reached (E : Environment) (serde : ScopeCodec) (codec : ArgumentsCodec)
    (events : List Event) : Sound E (reached E serde codec events) := by
  apply run_invariant (I := Sound E)
  · intro s event h
    cases event with
    | chat request correlationId => exact preserves_chat request correlationId s h
    | call call hother =>
        exact h.of_echoes (linked_call serde codec s.tables call h.linked)
          (echoes_call serde codec hother s.tables)
  · refine ⟨?_, fun row hrow => ?_⟩
    · intro id hid
      cases hid
    · cases hrow

/-! ## The request of a chat -/

/-- The chat hands this request to the provider client. -/
def Hands (E : Environment) (s : GatewayState) (request : ChatRequest) (correlationId : String)
    (handed : AiRequest) : Prop :=
  (chat E request correlationId s).2.exchanges.map Exchange.request =
    s.exchanges.map Exchange.request ++ [handed]

section

variable {E E' : Environment} {s s' : GatewayState} {request : ChatRequest}
  {correlationId correlationId' : String} {handed handed' : AiRequest}

/-- What a model is handed depends on the settings, the message and its conversation alone. -/
theorem Hands.eq (hlinked : Linked s.tables) (h : Hands E s request correlationId handed) :
    handed = requestWith s.tables.settings (String.ofList (trim request.message.toList))
      (shownMessages s.tables.settings (recentMessages s.tables request.sessionId)
        (E.clock s.consulted)) := by
  unfold Hands at h
  rcases chat_cases E request correlationId s with
    hsame | ⟨session, userMessage, prepared, reply, s', hcalled, hchat⟩
  · rw [hsame] at h
    have hlength := congrArg List.length h
    rw [List.length_append, List.length_singleton] at hlength
    omega
  · rw [← hcalled.request_eq hlinked]
    have hexchanges : (chat E request correlationId s).2.exchanges = s'.exchanges := by
      rw [hchat, state_map]
      exact keepsCalls_answerReply prepared session userMessage correlationId reply s'
    rw [hexchanges, hcalled.exchanges, List.map_append] at h
    exact (List.singleton_inj.mp (List.append_cancel_left h)).symm

/-- Recent messages are those of the conversation asked for. -/
theorem sessionId_of_mem_recentMessages {t : Tables} {requested : Option ChatSessionId}
    {message : ChatMessage} (h : message ∈ recentMessages t requested) :
    requested = some message.sessionId := by
  cases requested with
  | none => cases h
  | some id =>
      have hmem := List.mem_of_mem_take (List.mem_reverse.mp h)
      rw [Library.Ranking.mem_orderByDesc] at hmem
      rw [beq_iff_eq.mp (List.mem_filter.mp hmem).2]

/-- Without personal context no message is shown. -/
theorem shownMessages_of_private {settings : ApplicationSettings}
    (h : settings.allowPersonalContext = false) (recent : List ChatMessage) (nowMs : Int) :
    shownMessages settings recent nowMs = [] := by
  rw [shownMessages, h]
  rfl

/-- The messages that a request shows are the newest of its session, in their order. -/
theorem shownMessages_suffix (settings : ApplicationSettings) (recent : List ChatMessage)
    (nowMs : Int) : shownMessages settings recent nowMs <:+ recent := by
  unfold shownMessages
  split
  · exact preceding_suffix recent nowMs
  · exact List.nil_suffix

/-- The request, and the messages that it shows. -/
theorem Hands.made (hlinked : Linked s.tables) (h : Hands E s request correlationId handed) :
    handed = requestWith s.tables.settings (String.ofList (trim request.message.toList))
      (shownMessages s.tables.settings (recentMessages s.tables request.sessionId)
        (E.clock s.consulted)) ∧
    ∃ shown, shown <:+ recentMessages s.tables request.sessionId ∧ shown.length ≤ 8 ∧
      (∀ message ∈ shown, request.sessionId = some message.sessionId) ∧
      handed = requestWith s.tables.settings (String.ofList (trim request.message.toList))
        shown := by
  have hsuffix := shownMessages_suffix s.tables.settings
    (recentMessages s.tables request.sessionId) (E.clock s.consulted)
  refine ⟨h.eq hlinked, _, hsuffix, ?_, ?_, h.eq hlinked⟩
  · exact hsuffix.length_le.trans (length_recentMessages s.tables request.sessionId)
  · intro message hmessage
    exact sessionId_of_mem_recentMessages (hsuffix.subset hmessage)

end

/-- What a chat hands to the provider client after any two runs that end with the same settings.
Without personal context it is the same in both; with it, it is the same as soon as the newest
messages of the session are and the message comes at the same time. It is made of the settings, the
message and at most eight messages of its session. -/
theorem request_isolation {E E' : Environment} {serde serde' : ScopeCodec}
    {codec codec' : ArgumentsCodec} {events events' : List Event} {request : ChatRequest}
    {correlationId correlationId' : String} {handed handed' : AiRequest}
    (hsettings : (reached E' serde' codec' events').tables.settings =
      (reached E serde codec events).tables.settings)
    (h : Hands E (reached E serde codec events) request correlationId handed)
    (h' : Hands E' (reached E' serde' codec' events') request correlationId' handed') :
    ((reached E serde codec events).tables.settings.allowPersonalContext = false →
      handed' = handed) ∧
    (recentMessages (reached E' serde' codec' events').tables request.sessionId =
        recentMessages (reached E serde codec events).tables request.sessionId →
      E'.clock (reached E' serde' codec' events').consulted =
        E.clock (reached E serde codec events).consulted →
      handed' = handed) ∧
    ∃ shown, shown <:+ recentMessages (reached E serde codec events).tables request.sessionId ∧
      shown.length ≤ 8 ∧ (∀ message ∈ shown, request.sessionId = some message.sessionId) ∧
      handed = requestWith (reached E serde codec events).tables.settings
        (String.ofList (trim request.message.toList)) shown := by
  have hright := h'.eq (sound_reached E' serde' codec' events').linked
  obtain ⟨hleft, hshown⟩ := h.made (sound_reached E serde codec events).linked
  refine ⟨fun hprivate => ?_, fun hrecent hclock => ?_, hshown⟩
  · rw [hleft, hright, hsettings, shownMessages_of_private hprivate,
      shownMessages_of_private hprivate]
  · rw [hleft, hright, hsettings, hrecent, hclock]

/-- No personal context, and no cached answers. -/
def impersonal : ApplicationSettings :=
  { ApplicationSettings.default with preferCachedLocal := false }

/-- Settings, a provider and a model are saved. -/
def setUp : List Event :=
  [.call ⟨.interaction (.updateApplicationSettings impersonal 0), false⟩ (by simp),
    .call ⟨.interaction (.upsertProvider RequestPreview.hosted), false⟩ (by simp),
    .call ⟨.interaction (.upsertModel RequestPreview.talker), false⟩ (by simp)]

/-- A question. -/
def smallTalk : ChatRequest := ⟨none, "How are you?", .automatic⟩

/-- Another question. -/
def weatherTalk : ChatRequest := ⟨none, "Will it rain?", .automatic⟩

/-- The state after some events. -/
def after (events : List Event) : GatewayState :=
  reached RequestPreview.isolated (.listed []) (.listed []) events

/-- One service has talked about the weather before, the other one about nothing. -/
theorem request_isolation_talks :
    Hands RequestPreview.isolated (after setUp) smallTalk "request:2"
        (requestWith impersonal "How are you?" []) ∧
      Hands RequestPreview.isolated (after (setUp ++ [.chat weatherTalk "request:1"])) smallTalk
        "request:2" (requestWith impersonal "How are you?" []) ∧
      ∃ shown, shown <:+ recentMessages (after setUp).tables smallTalk.sessionId ∧
        shown.length ≤ 8 ∧ (∀ message ∈ shown, smallTalk.sessionId = some message.sessionId) ∧
        requestWith impersonal "How are you?" [] = requestWith (after setUp).tables.settings
          (String.ofList (trim smallTalk.message.toList)) shown := by
  have hfirst : Hands RequestPreview.isolated (after setUp) smallTalk "request:2"
      (requestWith impersonal "How are you?" []) := by
    unfold Hands
    decide +kernel
  have hsecond : Hands RequestPreview.isolated (after (setUp ++ [.chat weatherTalk "request:1"]))
      smallTalk "request:2" (requestWith impersonal "How are you?" []) := by
    unfold Hands
    decide +kernel
  have hsettings : (after (setUp ++ [.chat weatherTalk "request:1"])).tables.settings =
      (after setUp).tables.settings := by decide +kernel
  exact ⟨hfirst, hsecond, (request_isolation hsettings hfirst hsecond).2.2⟩

/-! ## Answers from the cache -/

section

variable {E : Environment} {s : GatewayState}

theorem assistantMessage_spec (sessionId : ChatSessionId) (content : String) (origin : ChatOrigin)
    (route : ChatRoute) (used : Option (Domain.Gateway.Provider × AiModel × AiUsage))
    (reusableCandidateId : Option CacheEntryId) :
    Returns (assistantMessage E sessionId content origin route used reusableCandidateId) s
      fun message _ => message.content = content ∧ message.origin = origin := by
  simp only [assistantMessage, returns_bind, returns_generate, returns_consult, returns_now,
    returns_pure]
  exact ⟨trivial, trivial⟩

theorem finishChat_spec (session : ChatSession) (userMessage assistant : ChatMessage) :
    Returns (finishChat session userMessage assistant) s
      fun result _ => result.assistantMessage = assistant := by
  simp only [finishChat, returns_bind, returns_pure]
  exact returns_of_forall fun _ _ => trivial

/-- Whoever answered: a cached entry, or not the cache. -/
def FromEntry (cached : Option CachedResponse) (result : ChatResult) : Prop :=
  result.assistantMessage.origin = .cache →
    ∃ entry, cached = some entry ∧ result.assistantMessage.content = entry.response

theorem answerUnavailable_spec (cached : Option CachedResponse) (session : ChatSession)
    (userMessage : ChatMessage) (content : String) :
    Returns (answerUnavailable E session userMessage content) s
      fun result _ => FromEntry cached result := by
  simp only [answerUnavailable, returns_bind]
  refine (assistantMessage_spec _ _ _ _ _ _).mono ?_
  rintro message s₁ ⟨-, horigin⟩
  refine (finishChat_spec session userMessage message).mono ?_
  intro result _ hresult hcache
  rw [hresult, horigin] at hcache
  cases hcache

theorem answerCached_spec (session : ChatSession) (userMessage : ChatMessage)
    (correlationId : String) (entry : CachedResponse) :
    Returns (answerCached E session userMessage correlationId entry) s
      fun result _ => FromEntry (some entry) result := by
  refine returns_bind_of_forall fun _ s₁ => returns_bind_of_forall fun _ s₂ => ?_
  rw [returns_bind]
  refine (assistantMessage_spec _ _ _ _ _ _).mono ?_
  rintro message s₃ ⟨hcontent, -⟩
  refine (finishChat_spec session userMessage message).mono ?_
  intro result _ hresult _
  exact ⟨entry, rfl, by rw [hresult, hcontent]⟩

/-- Without a cached entry, nothing is answered in the name of the cache. -/
theorem aiFallback_spec (selection : ModelSelection) (session : ChatSession)
    (userMessage : ChatMessage) (correlationId : String) :
    Returns (aiFallback E selection session userMessage correlationId) s
      fun result _ => FromEntry none result := by
  refine returns_bind_of_forall fun outcome s₁ => ?_
  cases outcome with
  | error e => exact returns_bind_of_forall fun _ _ => answerUnavailable_spec none _ _ _
  | ok prepared =>
      dsimp only
      rw [answerCall_eq]
      refine returns_bind_of_forall fun _ s₂ => returns_bind_of_forall fun reply s₃ => ?_
      rcases reply with _ | error | response
      · exact returns_bind_of_forall fun _ _ => answerUnavailable_spec none _ _ _
      · exact returns_bind_of_forall fun _ _ => returns_bind_of_forall fun _ _ =>
          answerUnavailable_spec none _ _ _
      · refine returns_bind_of_forall fun _ s₄ => returns_bind_of_forall fun _ s₅ =>
          returns_bind_of_forall fun _ s₆ => ?_
        rw [returns_bind]
        refine (assistantMessage_spec _ _ _ _ _ _).mono ?_
        rintro message s₇ ⟨-, horigin⟩
        refine (finishChat_spec session userMessage message).mono ?_
        intro result _ hresult hcache
        rw [hresult, horigin] at hcache
        cases hcache

theorem cachedAnswer_reads (userMessage : ChatMessage) :
    Returns (cachedAnswer E userMessage) s fun cached _ => ∀ entry, cached = some entry →
      cachedResponse s.tables.responseCache
        (String.ofList (normalizeRequest E.texts userMessage.content.toList)) "global"
        userMessage.createdAtMs = .ok (some entry) := by
  simp only [cachedAnswer, returns_bind, returns_gets]
  split
  · rw [returns_read]
    intro cached hcached entry hentry
    rw [hcached, hentry]
  · rw [returns_pure]
    intro entry hentry
    cases hentry

/-- What a chat answers from the cache, it answers from an entry for its message. -/
theorem chat_fromEntry (request : ChatRequest) (correlationId : String) :
    Returns (chat E request correlationId) s fun outcome _ =>
      ∀ result, outcome = .answered result → result.assistantMessage.origin = .cache →
        ∃ entry nowMs, result.assistantMessage.content = entry.response ∧
          cachedResponse s.tables.responseCache
            (String.ofList (normalizeRequest E.texts
              (String.ofList (trim request.message.toList)).toList)) "global" nowMs =
            .ok (some entry) := by
  simp only [chat, returns_bind]
  refine (receive_spec E request correlationId s).mono ?_
  rintro ⟨session, userMessage⟩ s₁ hreceived
  have hcontent : userMessage.content = String.ofList (trim request.message.toList) := by
    obtain ⟨id, hmessage⟩ := hreceived.message
    exact congrArg ChatMessage.content hmessage
  simp only [returns_orThrow]
  intro resolved hresolved
  cases resolved with
  -- A message that is resolved on the spot is not answered at all here.
  | some intent =>
      simp only [returns_pure]
      intro result houtcome
      cases houtcome
  | none =>
      simp only [respond, returns_bind, returns_pure]
      refine (cachedAnswer_reads userMessage).mono ?_
      intro cached s₂ hcached
      rw [hreceived.responseCache, hcontent] at hcached
      -- What is left answers from the entry that was found, or not from the cache.
      have hrest : ∀ {m : Gateway.Operation ChatResult},
          Returns m s₂ (fun result _ => FromEntry cached result) →
          Returns m s₂ fun result _ => ∀ result',
            ChatOutcome.answered result = .answered result' →
            result'.assistantMessage.origin = .cache →
            ∃ entry nowMs, result'.assistantMessage.content = entry.response ∧
              cachedResponse s.tables.responseCache
                (String.ofList (normalizeRequest E.texts
                  (String.ofList (trim request.message.toList)).toList)) "global" nowMs =
                .ok (some entry) := by
        intro m hm
        refine hm.mono ?_
        rintro result _ hfrom result' ⟨⟩ horigin
        obtain ⟨entry, hentry, hanswer⟩ := hfrom horigin
        exact ⟨entry, _, hanswer, hcached entry hentry⟩
      cases cached with
      | some entry => exact hrest (answerCached_spec session userMessage correlationId entry)
      | none =>
          apply hrest
          exact returns_bind_of_forall fun _ _ =>
            aiFallback_spec _ session userMessage correlationId

end

/-- The cache after any run. Every row is a model's answer to a request that had no context, made of
settings and one message; and what a chat answers from the cache is such an answer, to a message
that is the same once it is normalised. -/
theorem cache_isolation (E : Environment) (serde : ScopeCodec) (codec : ArgumentsCodec)
    (events : List Event) :
    (∀ row ∈ (reached E serde codec events).tables.responseCache,
      Contextless E (reached E serde codec events).exchanges row) ∧
    ∀ request correlationId result s',
      chat E request correlationId (reached E serde codec events) =
          (.ok (.answered result), s') →
      result.assistantMessage.origin = .cache →
      ∃ exchange ∈ (reached E serde codec events).exchanges, ∃ settings message response,
        exchange.request = requestWith settings message [] ∧ exchange.request.context = [] ∧
        exchange.reply = some (.ok response) ∧
        result.assistantMessage.content = response.content ∧
        normalizeRequest E.texts message.toList =
          normalizeRequest E.texts (trim request.message.toList) := by
  have hsound := sound_reached E serde codec events
  refine ⟨hsound.contextless, ?_⟩
  intro request correlationId result s' hchat horigin
  obtain ⟨entry, nowMs, hanswer, hlookup⟩ :=
    (chat_fromEntry request correlationId).of_eq hchat result rfl horigin
  obtain ⟨row, hrow, hholds, hread⟩ := row_of_cachedResponse hlookup
  obtain ⟨exchange, hexchange, settings, message, response, hof, hempty, hreply, hresponse, hkey⟩ :=
    hsound.contextless row hrow
  refine ⟨exchange, hexchange, settings, message, response, hof, hempty, hreply, ?_, ?_⟩
  · rw [hanswer, hread.response, hresponse]
  · rw [((holds_reusableFor row).mp hholds).1, String.toList_ofList] at hkey
    exact (String.ofList_injective hkey).symm

end Halquen.Service.RequestIsolation
