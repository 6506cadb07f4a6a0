import Halquen.Service.RequestPreview

/-!
# Calls of the provider

A chat request calls the provider client at most once (`chat_cases`). Where it does, it was
received, neither a local intent nor a cached response resolved it, a model was selected, and what
is left to do is to deal with the reply. The request that is handed to the client is a function of
the settings, of the message and, where the settings allow personal context, of the eight newest
messages of its session (`Called.request_eq`).
-/

set_option autoImplicit false

namespace Halquen.Service.ModelCalls

open Halquen.Domain.Ids Halquen.Domain.Capability Halquen.Domain.Gateway
open Halquen.Domain.Interaction Halquen.Protocol.Messages
open Halquen.Ai.Context Halquen.Ai.Prompt Halquen.Ai.Provider Halquen.Ai.Router
open Halquen.Library.Action Halquen.Library.Action.Act Halquen.Library.Ranking Halquen.Library.Sql
open Halquen.Service.ChatParser Halquen.Service.Fallback Halquen.Service.Gateway
open Halquen.Service.RequestPreview
open Halquen.Service.State (Failure)
open Halquen.Storage.Conversations Halquen.Storage.Grants Halquen.Storage.Interaction
open Halquen.Storage.Operations Halquen.Storage.Sqlite

/-! ## Steps of a chat -/

/-- A relation that is kept by every step of a chat other than the call and the candidate for the
cache. -/
structure KeptBySteps (R : GatewayState → GatewayState → Prop) : Prop where
  consult : ∀ {α : Type} (f : Nat → α), Keeps R (consult f)
  read : ∀ {α : Type} (f : Tables → Except StorageError α), Keeps R (Gateway.read f)
  perform : ∀ {operation : InteractionOperation},
    (∀ entry, operation ≠ .storeResponseCandidate entry) → Keeps R (Gateway.perform operation)
  session : ∀ requested title nowMs fresh, Keeps R
    (query (onDatabase (onInteraction (ensureChatSession requested title nowMs fresh))))

section

variable {E : Environment} {R : GatewayState → GatewayState → Prop} [IsPreorder GatewayState R]
  (h : KeptBySteps R)
include h

/-- A relation that single steps keep is kept by every handler, in the order of their calls. -/
theorem KeptBySteps.activity (sessionId : ChatSessionId) (correlationId : String)
    (kind : ActivityKind) (summary : String) (detail : Option String) :
    Keeps R (activity E sessionId correlationId kind summary detail) :=
  (h.consult _).bind fun _ => (h.consult _).bind fun _ => h.perform (by simp)

theorem KeptBySteps.receive (request : ChatRequest) (correlationId : String) :
    Keeps R (receive E request correlationId) :=
  (keeps_require _ _).bind fun _ => (h.consult _).bind fun _ => (h.consult _).bind fun _ =>
    (h.session _ _ _ _).bind fun _ => (h.consult _).bind fun _ =>
    (h.perform (by simp)).bind fun _ => (h.activity _ _ _ _ _).bind fun _ => keeps_pure _

theorem KeptBySteps.cachedAnswer (userMessage : ChatMessage) :
    Keeps R (cachedAnswer E userMessage) :=
  (keeps_gets _).bind fun _ => Keeps.ite (fun _ => h.read _) fun _ => keeps_pure _

theorem KeptBySteps.route (selection : ModelSelection) : Keeps R (route selection) :=
  (keeps_gets _).bind fun _ => (h.read _).bind fun _ => (h.read _).bind fun _ => keeps_pure _

theorem KeptBySteps.providerCredential (provider : Domain.Gateway.Provider) :
    Keeps R (providerCredential E provider) := by
  unfold Gateway.providerCredential
  cases provider.credentialId with
  | none => exact keeps_pure _
  | some reference => exact (h.consult _).bind fun _ => keeps_ofExcept _

theorem KeptBySteps.prepare (selection : ModelSelection) (session : ChatSession)
    (userMessage : ChatMessage) : Keeps R (prepare E selection session userMessage) := by
  refine (h.route selection).bind ?_
  rintro ⟨selected, providers, models⟩
  cases selected with
  | error e => exact keeps_pure _
  | ok selected =>
      exact (keeps_orThrow _ _).bind fun _ => (keeps_orThrow _ _).bind fun _ =>
        (h.providerCredential _).bind fun _ => (keeps_gets _).bind fun _ =>
        (keeps_gets _).bind fun _ => keeps_pure _

theorem KeptBySteps.finishChat (session : ChatSession) (userMessage assistant : ChatMessage) :
    Keeps R (finishChat session userMessage assistant) :=
  (h.perform (by simp)).bind fun _ => keeps_pure _

theorem KeptBySteps.assistantMessage (sessionId : ChatSessionId) (content : String)
    (origin : ChatOrigin) (route : ChatRoute)
    (used : Option (Domain.Gateway.Provider × AiModel × AiUsage))
    (reusableCandidateId : Option CacheEntryId) :
    Keeps R (assistantMessage E sessionId content origin route used reusableCandidateId) :=
  (h.consult _).bind fun _ => (h.consult _).bind fun _ => (h.consult _).bind fun _ => keeps_pure _

theorem KeptBySteps.answerUnavailable (session : ChatSession) (userMessage : ChatMessage)
    (content : String) : Keeps R (answerUnavailable E session userMessage content) :=
  (h.assistantMessage _ _ _ _ _ _).bind fun _ => h.finishChat _ _ _

theorem KeptBySteps.answerCached (session : ChatSession) (userMessage : ChatMessage)
    (correlationId : String) (entry : CachedResponse) :
    Keeps R (answerCached E session userMessage correlationId entry) :=
  (h.perform (by simp)).bind fun _ => (h.activity _ _ _ _ _).bind fun _ =>
    (h.assistantMessage _ _ _ _ _ _).bind fun _ => h.finishChat _ _ _

theorem KeptBySteps.answerCancelled (session : ChatSession) (userMessage : ChatMessage)
    (correlationId : String) : Keeps R (answerCancelled E session userMessage correlationId) :=
  (h.activity _ _ _ _ _).bind fun _ => h.answerUnavailable _ _ _

theorem KeptBySteps.answerFailed (session : ChatSession) (userMessage : ChatMessage)
    (correlationId : String) (error : AiError) :
    Keeps R (answerFailed E session userMessage correlationId error) :=
  (h.perform (by simp)).bind fun _ => (h.activity _ _ _ _ _).bind fun _ =>
    h.answerUnavailable _ _ _

/-- What is left of the answer once the candidate was kept. -/
theorem KeptBySteps.answerCompleted {prepared : Prepared} {userMessage : ChatMessage}
    {response : AiResponse} {s : GatewayState}
    (hcandidate : Post (keepCandidate E prepared userMessage response) s fun _ s' => R s s')
    (session : ChatSession) (correlationId : String) :
    Post (answerCompleted E prepared session userMessage correlationId response) s
      fun _ s' => R s s' := by
  apply hcandidate.bind
  · intro candidateId s₁ hkept
    refine Post.mono (Keeps.post ?_ s₁) fun _ _ hrest => trans_of R hkept hrest
    exact (h.perform (by simp)).bind fun _ => (h.activity _ _ _ _ _).bind fun _ =>
      (h.assistantMessage _ _ _ _ _ _).bind fun _ => h.finishChat _ _ _
  · exact fun _ _ hkept => hkept

end

/-- The provider client is called as often as before. -/
abbrev SameCalls : GatewayState → GatewayState → Prop := Same GatewayState.exchanges

/-- Apart from the exchange itself no step calls a model. -/
theorem sameCalls_steps : KeptBySteps SameCalls where
  consult _ _ := rfl
  read _ _ := rfl
  perform _ _ := rfl
  session _ _ _ _ _ := rfl

/-! ## The reply -/

section

variable {E : Environment}

/-- What is done with the reply of the provider, or without one. -/
def answerReply (E : Environment) (prepared : Prepared) (session : ChatSession)
    (userMessage : ChatMessage) (correlationId : String) :
    Option (Except AiError AiResponse) → Gateway.Operation ChatResult
  | none => answerCancelled E session userMessage correlationId
  | some (.ok response) => answerCompleted E prepared session userMessage correlationId response
  | some (.error error) => answerFailed E session userMessage correlationId error

/-- A call is noted, made and answered. -/
theorem answerCall_eq (prepared : Prepared) (session : ChatSession) (userMessage : ChatMessage)
    (correlationId : String) :
    answerCall E prepared session userMessage correlationId = (do
      activity E session.id correlationId .aiSelected "AI fallback selected"
        (some (selectionDetail prepared))
      let reply ← exchange E prepared
      answerReply E prepared session userMessage correlationId reply) := rfl

section

variable {R : GatewayState → GatewayState → Prop} [IsPreorder GatewayState R]
  (h : KeptBySteps R)
  (hcandidate : ∀ entry, Keeps R (Gateway.perform (.storeResponseCandidate entry)))
include h hcandidate

theorem KeptBySteps.answerReply (prepared : Prepared) (session : ChatSession)
    (userMessage : ChatMessage) (correlationId : String)
    (reply : Option (Except AiError AiResponse)) :
    Keeps R (answerReply E prepared session userMessage correlationId reply) := by
  rcases reply with _ | error | response
  · exact h.answerCancelled _ _ _
  · exact h.answerFailed _ _ _ _
  · intro s
    have hkept : Keeps R (keepCandidate E prepared userMessage response) :=
      Keeps.ite
        (fun _ => (h.consult _).bind fun _ => (h.consult _).bind fun _ =>
          (hcandidate _).bind fun _ => keeps_pure _)
        fun _ => keeps_pure _
    exact h.answerCompleted (hkept.post s) session correlationId

/-- What the call and the candidate keep as well, a chat keeps. -/
theorem KeptBySteps.chat (hexchange : ∀ prepared, Keeps R (exchange E prepared))
    (request : ChatRequest) (correlationId : String) :
    Keeps R (chat E request correlationId) := by
  refine (h.receive request correlationId).bind ?_
  rintro ⟨session, userMessage⟩
  refine (keeps_orThrow _ _).bind fun resolved => ?_
  cases resolved with
  | some intent => exact keeps_pure _
  | none =>
      refine Keeps.bind ?_ fun _ => keeps_pure _
      refine (h.cachedAnswer userMessage).bind fun cached => ?_
      cases cached with
      | some entry => exact h.answerCached _ _ _ _
      | none =>
          refine (h.activity _ _ _ _ _).bind fun _ => ?_
          refine (h.prepare _ _ _).bind fun outcome => ?_
          cases outcome with
          | error e => exact (h.activity _ _ _ _ _).bind fun _ => h.answerUnavailable _ _ _
          | ok prepared =>
              dsimp only
              rw [answerCall_eq]
              exact (h.activity _ _ _ _ _).bind fun _ => (hexchange prepared).bind fun reply =>
                h.answerReply hcandidate _ _ _ _ reply

end

/-- Answering calls no model again. -/
theorem keepsCalls_answerReply (prepared : Prepared) (session : ChatSession)
    (userMessage : ChatMessage) (correlationId : String)
    (reply : Option (Except AiError AiResponse)) :
    Keeps SameCalls (answerReply E prepared session userMessage correlationId reply) :=
  sameCalls_steps.answerReply (fun _ _ => rfl) prepared session userMessage correlationId reply

/-- The state after the client was called. -/
def exchanged (prepared : Prepared) (reply : Option (Except AiError AiResponse))
    (s : GatewayState) : GatewayState :=
  { s with
    consulted := s.consulted + 2
    exchanges := s.exchanges ++ [⟨prepared.provider, prepared.model, prepared.request, reply⟩] }

/-- The client is not called, or called once. -/
theorem exchange_cases (E : Environment) (prepared : Prepared) (s : GatewayState) :
    (E.cancelled s.consulted = true ∧
      exchange E prepared s = (.ok none, { s with consulted := s.consulted + 1 })) ∨
    ∃ reply, E.cancelled s.consulted = false ∧
      reply = E.complete (s.consulted + 1) prepared.provider prepared.model prepared.credential
        prepared.request ∧
      exchange E prepared s = (.ok reply, exchanged prepared reply s) := by
  cases hcancelled : E.cancelled s.consulted with
  | true =>
      refine .inl ⟨rfl, ?_⟩
      simp only [exchange, bind, consult, hcancelled]
      rfl
  | false =>
      refine .inr ⟨_, rfl, rfl, ?_⟩
      simp only [exchange, bind, consult, hcancelled]
      rfl

end

/-! ## The path to the call -/

section

variable {E : Environment} {α β : Type}

/-- After a step that makes no call, the computation has made none or goes on. -/
theorem calls_bind {m : Gateway.Operation α} (hm : Keeps SameCalls m)
    (f : α → Gateway.Operation β) (s : GatewayState) :
    ((m >>= f) s).2.exchanges = s.exchanges ∨
      ∃ a s', m s = (.ok a, s') ∧ s'.exchanges = s.exchanges ∧ (m >>= f) s = f a s' := by
  have hsame := hm s
  rcases bind_cases m f s with ⟨e, s', hstep, hstop⟩ | ⟨a, s', hstep, hnext⟩
  · rw [hstep] at hsame
    rw [hstop]
    exact .inl hsame
  · rw [hstep] at hsame
    exact .inr ⟨a, s', hstep, hsame, hnext⟩

/-- So a call is one exchange, or none where the note is refused. -/
theorem answerCall_cases (prepared : Prepared) (session : ChatSession) (userMessage : ChatMessage)
    (correlationId : String) (s : GatewayState) :
    (answerCall E prepared session userMessage correlationId s).2.exchanges = s.exchanges ∨
    ∃ reply s₁,
      activity E session.id correlationId .aiSelected "AI fallback selected"
        (some (selectionDetail prepared)) s = (.ok (), s₁) ∧
      s₁.exchanges = s.exchanges ∧
      E.cancelled s₁.consulted = false ∧
      reply = E.complete (s₁.consulted + 1) prepared.provider prepared.model prepared.credential
        prepared.request ∧
      answerCall E prepared session userMessage correlationId s =
        answerReply E prepared session userMessage correlationId reply
          (exchanged prepared reply s₁) := by
  rw [answerCall_eq]
  rcases calls_bind (sameCalls_steps.activity _ _ _ _ _) _ s with
    hsame | ⟨_, s₁, hactivity, hsame, hnext⟩
  · exact .inl hsame
  rw [hnext]
  rcases exchange_cases E prepared s₁ with ⟨-, hexchange⟩ | ⟨reply, hcancelled, hreply, hexchange⟩
  · refine .inl ?_
    rw [bind_of_ok hexchange]
    exact (keepsCalls_answerReply prepared session userMessage correlationId none _).trans hsame
  · exact .inr ⟨reply, s₁, hactivity, hsame, hcancelled, hreply, bind_of_ok hexchange _⟩

/-- The fallback makes one call, or none. -/
theorem aiFallback_cases (selection : ModelSelection) (session : ChatSession)
    (userMessage : ChatMessage) (correlationId : String) (s : GatewayState) :
    (aiFallback E selection session userMessage correlationId s).2.exchanges = s.exchanges ∨
    ∃ prepared s₁,
      prepare E selection session userMessage s = (.ok (.ok prepared), s₁) ∧
      s₁.exchanges = s.exchanges ∧
      aiFallback E selection session userMessage correlationId s =
        answerCall E prepared session userMessage correlationId s₁ := by
  unfold aiFallback
  rcases calls_bind (sameCalls_steps.prepare selection session userMessage) _ s with
    hsame | ⟨outcome, s₁, hprepare, hsame, hnext⟩
  · exact .inl hsame
  rw [hnext]
  cases outcome with
  | ok prepared => exact .inr ⟨prepared, s₁, hprepare, hsame, rfl⟩
  | error e =>
      refine .inl (Eq.trans ?_ hsame)
      exact (sameCalls_steps.activity _ _ _ _ _).bind
        (fun _ => sameCalls_steps.answerUnavailable session userMessage _) s₁

/-- So does a chat that is not handled locally. -/
theorem respond_cases (selection : ModelSelection) (session : ChatSession)
    (userMessage : ChatMessage) (correlationId : String) (s : GatewayState) :
    (respond E selection session userMessage correlationId s).2.exchanges = s.exchanges ∨
    ∃ s₁ s₂,
      cachedAnswer E userMessage s = (.ok none, s₁) ∧
      activity E session.id correlationId .cacheMiss "No reusable local response matched" none s₁ =
        (.ok (), s₂) ∧
      s₂.exchanges = s.exchanges ∧
      respond E selection session userMessage correlationId s =
        aiFallback E selection session userMessage correlationId s₂ := by
  unfold respond
  rcases calls_bind (sameCalls_steps.cachedAnswer userMessage) _ s with
    hsame | ⟨cached, s₁, hcached, hsame, hnext⟩
  · exact .inl hsame
  rw [hnext]
  cases cached with
  | some entry =>
      refine .inl (Eq.trans ?_ hsame)
      exact sameCalls_steps.answerCached session userMessage correlationId entry s₁
  | none =>
      dsimp only
      rcases calls_bind (sameCalls_steps.activity _ _ _ _ _) _ s₁ with
        hsame₂ | ⟨_, s₂, hactivity, hsame₂, hnext₂⟩
      · exact .inl (hsame₂.trans hsame)
      · exact .inr ⟨s₁, s₂, hcached, hactivity, hsame₂.trans hsame, hnext₂⟩

end

/-- The request came to the provider client, which was called for this message with what was
prepared, and replied. -/
structure Called (E : Environment) (s : GatewayState) (request : ChatRequest)
    (correlationId : String) (session : ChatSession) (userMessage : ChatMessage)
    (prepared : Prepared) (reply : Option (Except AiError AiResponse)) (s' : GatewayState) :
    Prop where
  steps : ∃ s₁ s₂ s₃ s₄ s₅,
    receive E request correlationId s = (.ok (session, userMessage), s₁) ∧
    resolveLocal E.texts userMessage.content.toList = some none ∧
    cachedAnswer E userMessage s₁ = (.ok none, s₂) ∧
    activity E session.id correlationId .cacheMiss "No reusable local response matched" none s₂ =
      (.ok (), s₃) ∧
    prepare E request.modelSelection session userMessage s₃ = (.ok (.ok prepared), s₄) ∧
    activity E session.id correlationId .aiSelected "AI fallback selected"
      (some (selectionDetail prepared)) s₄ = (.ok (), s₅) ∧
    E.cancelled s₅.consulted = false ∧
    reply = E.complete (s₅.consulted + 1) prepared.provider prepared.model prepared.credential
      prepared.request ∧
    s' = exchanged prepared reply s₅
  exchanges : s'.exchanges =
    s.exchanges ++ [⟨prepared.provider, prepared.model, prepared.request, reply⟩]

/-- A chat request makes no call, or goes on with the reply to one. -/
theorem chat_cases (E : Environment) (request : ChatRequest) (correlationId : String)
    (s : GatewayState) :
    (chat E request correlationId s).2.exchanges = s.exchanges ∨
    ∃ session userMessage prepared reply s',
      Called E s request correlationId session userMessage prepared reply s' ∧
      chat E request correlationId s = (do
        let result ← answerReply E prepared session userMessage correlationId reply
        return ChatOutcome.answered result : Gateway.Operation ChatOutcome) s' := by
  unfold chat
  rcases calls_bind (sameCalls_steps.receive request correlationId) _ s with
    hsame | ⟨⟨session, userMessage⟩, s₁, hreceive, hsame, hnext⟩
  · exact .inl hsame
  rw [hnext]
  dsimp only
  -- A message that is resolved on the spot reaches no provider.
  cases hlocal : resolveLocal E.texts userMessage.content.toList with
  | none => exact .inl hsame
  | some resolved =>
      cases resolved with
      | some intent => exact .inl hsame
      | none =>
          change ((do return .answered (← respond E request.modelSelection session userMessage
              correlationId) : Gateway.Operation ChatOutcome) s₁).2.exchanges = _ ∨ _
          rw [state_map]
          -- Neither does one that is answered from the cache,
          rcases respond_cases request.modelSelection session userMessage correlationId s₁ with
            hnone | ⟨s₂, s₃, hcached, hmiss, hsame₃, hrespond⟩
          · exact .inl (hnone.trans hsame)
          -- one for which nothing can be prepared,
          rcases aiFallback_cases request.modelSelection session userMessage correlationId s₃ with
            hnone | ⟨prepared, s₄, hprepare, hsame₄, hfallback⟩
          · rw [hrespond]
            exact .inl (hnone.trans (hsame₃.trans hsame))
          -- or one that is cancelled before the call.
          rcases answerCall_cases prepared session userMessage correlationId s₄ with
            hnone | ⟨reply, s₅, hselected, hsame₅, hcancelled, hreply, hcall⟩
          · rw [hrespond, hfallback]
            exact .inl (hnone.trans (hsame₄.trans (hsame₃.trans hsame)))
          refine .inr ⟨session, userMessage, prepared, reply, exchanged prepared reply s₅, ⟨⟨s₁, s₂,
            s₃, s₄, s₅, hreceive, hlocal, hcached, hmiss, hprepare, hselected, hcancelled, hreply,
            rfl⟩, ?_⟩, map_congr (hrespond.trans (hfallback.trans hcall)) _⟩
          exact congrArg (· ++ [_]) (hsame₅.trans (hsame₄.trans (hsame₃.trans hsame)))

/-! ## The request -/

/-- The newest messages of a session, of which there are eight at most. -/
def recentMessages (t : Tables) (requested : Option ChatSessionId) : List ChatMessage :=
  (requested.map fun id => listChatMessages t.database.interaction id 8).getD []

/-- What is left of the eight newest messages once a message of this time is among them: it takes
the place of the oldest, unless all of them are later. -/
def preceding (recent : List ChatMessage) (nowMs : Int) : List ChatMessage :=
  if 7 < recent.countP fun message => decide (nowMs < message.createdAtMs) then recent
  else recent.drop (recent.length - 7)

/-- The messages that a request shows to a model. -/
def shownMessages (settings : ApplicationSettings) (recent : List ChatMessage) (nowMs : Int) :
    List ChatMessage :=
  if settings.allowPersonalContext then preceding recent nowMs else []

/-- The request for a message, after some messages of its conversation. -/
def requestWith (settings : ApplicationSettings) (message : String) (shown : List ChatMessage) :
    AiRequest where
  task := .conversation
  systemPrompt := compose conversationProfile settings.personalInstructions
  userMessage := message
  context := (build settings.maxContextTokens.toNat (shown.map contextItem)).items
  maxOutputTokens := settings.maxOutputTokens

/-- The messages before a time are the end of the list. -/
theorem preceding_suffix (recent : List ChatMessage) (nowMs : Int) :
    preceding recent nowMs <:+ recent := by
  unfold preceding
  split
  · exact List.suffix_refl recent
  · exact List.drop_suffix _ _

/-- At most eight messages are recent. -/
theorem length_recentMessages (t : Tables) (requested : Option ChatSessionId) :
    (recentMessages t requested).length ≤ 8 := by
  cases requested with
  | none => exact Nat.zero_le 8
  | some id =>
      change (lastRows ChatMessage.createdAtMs 8 (sessionMessages t id)).length ≤ 8
      rw [lastRows, List.length_reverse, List.length_take]
      exact Nat.min_le_left _ _

theorem lastRows_eq_preceding (messages : List ChatMessage) (nowMs : Int) :
    lastRows ChatMessage.createdAtMs
        (if 7 < messages.countP fun message => decide (nowMs < message.createdAtMs) then 8 else 7)
        messages =
      preceding (lastRows ChatMessage.createdAtMs 8 messages) nowMs := by
  have hlater : ∀ r s : ChatMessage, r.createdAtMs ≤ s.createdAtMs →
      decide (nowMs < r.createdAtMs) = true → decide (nowMs < s.createdAtMs) = true := by
    intro r s hle h
    rw [decide_eq_true_eq] at h ⊢
    exact Int.lt_of_lt_of_le h hle
  have hcount := lt_countP_lastRows_iff ChatMessage.createdAtMs hlater 7 messages
  unfold preceding
  by_cases h : 7 < messages.countP fun message => decide (nowMs < message.createdAtMs)
  · rw [if_pos h, if_pos (hcount.mpr h)]
  · rw [if_neg h, if_neg (fun hmany => h (hcount.mp hmany))]
    exact lastRows_eq_drop ChatMessage.createdAtMs 7 messages

section

variable {E : Environment} {s s' : GatewayState} {request : ChatRequest} {session : ChatSession}
  {userMessage : ChatMessage}

/-- What the fallback lists of the conversation, in terms of what was stored before. -/
theorem shown_of_received (hlinked : Linked s.tables)
    (h : Received E s request session userMessage s') :
    (listChatMessages s'.tables.database.interaction session.id 8).filter
        (fun message => message.id != userMessage.id) =
      preceding (recentMessages s.tables request.sessionId) (E.clock s.consulted) := by
  have hclock : userMessage.createdAtMs = E.clock s.consulted := by
    obtain ⟨id, hmessage⟩ := h.message
    rw [hmessage]
    rfl
  rw [filter_listChatMessages h, lastRows_eq_preceding, hclock]
  rcases h.session with hsession | ⟨hnone, hnew⟩
  · rw [hsession]
    rfl
  · rw [sessionMessages_of_new hlinked hnew, hnone]
    rfl

/-- The context of a message is built from the messages before it. -/
theorem recentContext_of_received (hlinked : Linked s.tables)
    (h : Received E s request session userMessage s') :
    recentContext s'.tables session userMessage =
      build s.tables.settings.maxContextTokens.toNat
        ((shownMessages s.tables.settings (recentMessages s.tables request.sessionId)
          (E.clock s.consulted)).map contextItem) := by
  unfold recentContext shownMessages
  rw [h.same.settings, shown_of_received hlinked h]

end

/-- The request that is handed to the provider client. -/
theorem Called.request_eq {E : Environment} {s s' : GatewayState} {request : ChatRequest}
    {correlationId : String} {session : ChatSession} {userMessage : ChatMessage}
    {prepared : Prepared} {reply : Option (Except AiError AiResponse)} (hlinked : Linked s.tables)
    (h : Called E s request correlationId session userMessage prepared reply s') :
    prepared.request = requestWith s.tables.settings (String.ofList (trim request.message.toList))
      (shownMessages s.tables.settings (recentMessages s.tables request.sessionId)
        (E.clock s.consulted)) := by
  obtain ⟨s₁, s₂, s₃, s₄, s₅, hreceive, -, hcached, hmiss, hprepare, -⟩ := h.steps
  have hreceived := (receive_spec E request correlationId s).of_eq hreceive
  obtain rfl := (cachedAnswer_spec E userMessage s₁).of_eq hcached
  obtain ⟨event, rfl⟩ := (activity_spec E _ _ _ _ _ s₂).of_eq hmiss
  obtain ⟨-, -, hprepared⟩ := (prepare_spec E _ _ _ _).of_eq hprepare
  obtain ⟨id, hmessage⟩ := hreceived.message
  have hcontext : prepared.projection = recentContext s₂.tables session userMessage :=
    hprepared.projection
  rw [hprepared.request, hcontext, recentContext_of_received hlinked hreceived]
  have hsettings : (withActivity event s₂.tables).settings = s.tables.settings :=
    hreceived.same.settings
  have hcontent : userMessage.content = String.ofList (trim request.message.toList) :=
    congrArg ChatMessage.content hmessage
  dsimp only
  rw [hsettings, requestOf, hcontent]
  rfl

end Halquen.Service.ModelCalls
