import Halquen.Library.History
import Halquen.Storage.Operations

/-!
# Conversations

What the statements on chat sessions, messages and activity need and do. A chat message belongs to a
stored session: this is the foreign key of the messages, and it holds in every state that the
operations of the database reach (`linked_reached`). No session is ever deleted, and the only
operations that add a session or a message are `ensureChatSession` and `appendChatMessage`.
-/

set_option autoImplicit false

namespace Halquen.Storage.Conversations

open Halquen.Domain.Ids Halquen.Domain.Capability Halquen.Domain.Interaction
open Halquen.Library.Action Halquen.Library.Action.Act Halquen.Library.History
open Halquen.Library.Run Halquen.Library.Sql
open Halquen.Storage.Agents Halquen.Storage.Grants Halquen.Storage.Interaction
open Halquen.Storage.Labels Halquen.Storage.Operations Halquen.Storage.Sqlite

/-! ## Sessions, messages and activity -/

/-- The tables with changed tables of the interaction. -/
def withInteraction (t : Tables) (interaction : InteractionTables) : Tables :=
  { t with database := { t.database with interaction := interaction } }

@[simp]
theorem returns_onInteraction {α : Type} {m : Act InteractionTables StorageError α} {t : Tables}
    {Q : α → Tables → Prop} :
    Returns (onDatabase (onInteraction m)) t Q ↔
      Returns m t.database.interaction fun a rows => Q a (withInteraction t rows) := Iff.rfl

/-- The sessions after a message of one of them. -/
def touchSession (message : ChatMessage) (sessions : List ChatSession) : List ChatSession :=
  updateRows (fun session : ChatSession => eq (some session.id) (some message.sessionId))
    (fun session => { session with updatedAtMs := message.createdAtMs }) sessions

/-- The tables with one more message. -/
def withMessage (message : ChatMessage) (t : Tables) : Tables :=
  withInteraction t { t.database.interaction with
    chatMessages := t.database.interaction.chatMessages ++ [message]
    chatSessions := touchSession message t.database.interaction.chatSessions }

/-- What the tables of the interaction require of a message. -/
structure Storable (t : InteractionTables) (message : ChatMessage) : Prop where
  content : (!isBlank message.content && decide (message.content.utf8ByteSize ≤ 65536)) = true
  latency : message.latencyMs.all fitsColumn = true
  session : t.chatSessions.any (fun s => s.id == message.sessionId) = true
  column : lengthWithin message.content 65536 = true
  fresh : ∀ other ∈ t.chatMessages, other.id ≠ message.id

/-- What is required of a message that is to be stored. -/
structure MessageAccepted (t : Tables) (message : ChatMessage) : Prop where
  storable : Storable t.database.interaction message
  referenced : references t message.providerId message.modelId = true

/-- A message is written to its conversation, or nothing happens. -/
theorem appendChatMessage_spec (message : ChatMessage) (t : InteractionTables) :
    Post (appendChatMessage message) t fun r t' =>
      (r = .ok () ∧ Storable t message ∧ t' = { t with
          chatMessages := t.chatMessages ++ [message]
          chatSessions := touchSession message t.chatSessions }) ∨
        ((∃ e, r = .error e) ∧ ¬ Storable t message) := by
  rw [appendChatMessage, post_bind, post_require]
  -- The three checks and the insertion, in the order of the source.
  constructor
  · intro hcontent
    rw [next_ok, post_bind, post_require]
    constructor
    · intro hlatency
      rw [next_ok, post_transaction, post_bind, post_gets, next_ok, post_bind, post_require]
      constructor
      · intro hcolumn
        rw [next_ok, post_bind]
        rw [Bool.and_eq_true] at hcolumn
        cases hinsert : insertRow ChatMessage.id message t.chatMessages with
        | none =>
            refine .inr ⟨⟨_, rfl⟩, fun h => ?_⟩
            rw [(insertRow_eq_some_iff _ _ _ _).mpr ⟨h.fresh, rfl⟩] at hinsert
            cases hinsert
        | some rows =>
            obtain ⟨hfresh, rfl⟩ := (insertRow_eq_some_iff _ _ _ _).mp hinsert
            exact .inl ⟨rfl, ⟨hcontent, hlatency, hcolumn.1, hcolumn.2, hfresh⟩, rfl⟩
      · intro hcolumn
        refine .inr ⟨⟨_, rfl⟩, fun h => ?_⟩
        rw [h.session, h.column] at hcolumn
        cases hcolumn
    · intro hlatency
      refine .inr ⟨⟨_, rfl⟩, fun h => ?_⟩
      rw [h.latency] at hlatency
      cases hlatency
  · intro hcontent
    refine .inr ⟨⟨_, rfl⟩, fun h => ?_⟩
    rw [h.content] at hcontent
    cases hcontent

/-- A message is stored at the end of the table, or nothing changes. -/
theorem appendMessage_spec (message : ChatMessage) (t : Tables) :
    Post (InteractionOperation.appendChatMessage message).perform t fun r t' =>
      (r = .ok () ∧ MessageAccepted t message ∧ t' = withMessage message t) ∨
        ((∃ e, r = .error e) ∧ ¬ MessageAccepted t message ∧ t' = t) := by
  rw [InteractionOperation.perform, post_transaction, post_bind, post_gets, next_ok, post_bind,
    post_onDatabase, post_onInteraction]
  apply (appendChatMessage_spec message t.database.interaction).mono
  rintro r rows (⟨rfl, hstorable, rfl⟩ | ⟨⟨e, rfl⟩, hnot⟩)
  · rw [next_ok, post_require]
    constructor
    · intro href
      exact .inl ⟨rfl, ⟨hstorable, href⟩, rfl⟩
    · intro href
      refine .inr ⟨⟨_, rfl⟩, fun h => ?_, rfl⟩
      rw [h.referenced] at href
      cases href
  · exact .inr ⟨⟨_, rfl⟩, fun h => hnot h.storable, rfl⟩

/-- What is required of an activity event. -/
structure Recordable (t : InteractionTables) (event : ActivityEvent) : Prop where
  bounds : (event.correlationId != "" && decide (event.correlationId.utf8ByteSize ≤ 128)
      && !isBlank event.summary && decide (event.summary.utf8ByteSize ≤ 1024)
      && event.detail.all fun value => decide (value.utf8ByteSize ≤ 4096)) = true
  columns : (event.sessionId.all (fun id => t.chatSessions.any fun session => session.id == id)
      && lengthWithin event.correlationId 128 && lengthWithin event.summary 1024) = true
  fresh : ∀ other ∈ t.activityEvents, other.id ≠ event.id

/-- The tables with one more line of the activity list. -/
def withActivity (event : ActivityEvent) (t : Tables) : Tables :=
  withInteraction t { t.database.interaction with
    activityEvents := t.database.interaction.activityEvents ++ [event] }

/-- An event is recorded at the end of the table, or nothing changes. -/
theorem appendActivity_spec (event : ActivityEvent) (t : Tables) :
    Post (InteractionOperation.appendActivity event).perform t fun r t' =>
      (r = .ok () ∧ Recordable t.database.interaction event ∧ t' = withActivity event t) ∨
        ((∃ e, r = .error e) ∧ ¬ Recordable t.database.interaction event) := by
  rw [InteractionOperation.perform, post_onDatabase, post_onInteraction, appendActivity, post_bind,
    post_require]
  constructor
  · intro hbounds
    rw [next_ok, post_bind, post_gets, next_ok, post_bind, post_require]
    constructor
    · intro hcolumns
      rw [next_ok, post_bind]
      cases hinsert : insertRow ActivityEvent.id event t.database.interaction.activityEvents with
      | none =>
          refine .inr ⟨⟨_, rfl⟩, fun h => ?_⟩
          rw [(insertRow_eq_some_iff _ _ _ _).mpr ⟨h.fresh, rfl⟩] at hinsert
          cases hinsert
      | some rows =>
          obtain ⟨hfresh, rfl⟩ := (insertRow_eq_some_iff _ _ _ _).mp hinsert
          exact .inl ⟨rfl, ⟨hbounds, hcolumns, hfresh⟩, rfl⟩
    · intro hcolumns
      refine .inr ⟨⟨_, rfl⟩, fun h => ?_⟩
      rw [h.columns] at hcolumns
      cases hcolumns
  · intro hbounds
    refine .inr ⟨⟨_, rfl⟩, fun h => ?_⟩
    rw [h.bounds] at hbounds
    cases hbounds

/-- The session of a request: a stored one, or a new one. -/
def SessionOf (requested : Option ChatSessionId) (fresh : ChatSessionId) (t : InteractionTables)
    (session : ChatSession) (t' : InteractionTables) : Prop :=
  (requested = some session.id ∧ session ∈ t.chatSessions ∧ t' = t) ∨
    (requested = none ∧ session.id = fresh ∧ (∀ other ∈ t.chatSessions, other.id ≠ fresh) ∧
      t' = { t with chatSessions := t.chatSessions ++ [session] })

/-- The conversation returned is there afterwards. -/
theorem ensureChatSession_spec (requested : Option ChatSessionId) (title : String) (nowMs : Int)
    (fresh : ChatSessionId) (t : InteractionTables) :
    Post (ensureChatSession requested title nowMs fresh) t
      (Settled t (SessionOf requested fresh t)) := by
  rw [ensureChatSession, post_bind, post_gets, next_ok]
  cases requested with
  | none =>
      dsimp only
      rw [post_bind, post_require]
      constructor
      · intro _
        rw [next_ok, post_bind]
        cases hinsert : insertRow ChatSession.id ⟨fresh, boundedTitle title, nowMs, nowMs⟩
            t.chatSessions with
        | none => exact rfl
        | some rows =>
            obtain ⟨hfresh, rfl⟩ := (insertRow_eq_some_iff _ _ _ _).mp hinsert
            exact .inr ⟨rfl, rfl, hfresh, rfl⟩
      · intro _
        exact rfl
  | some id =>
      dsimp only
      cases hfind : t.chatSessions.find? fun session => session.id == id with
      | none => exact rfl
      | some session =>
          have hid := List.find?_some hfind
          rw [beq_iff_eq] at hid
          exact .inl ⟨congrArg some hid.symm, List.mem_of_find?_eq_some hfind, rfl⟩

/-! ## Messages and their sessions -/

/-- The sessions that are stored, and the sessions that messages name. -/
def chatLinks (t : InteractionTables) : List ChatSessionId × List ChatSessionId :=
  (t.chatSessions.map ChatSession.id, t.chatMessages.map ChatMessage.sessionId)

/-- The sessions that there are and those that messages name. -/
def links (t : Tables) : List ChatSessionId × List ChatSessionId :=
  chatLinks t.database.interaction

/-- Every message belongs to a stored session. -/
def Linked (t : Tables) : Prop := ∀ id ∈ (links t).2, id ∈ (links t).1

/-- Every message has its conversation. -/
theorem Linked.exists_session {t : Tables} (h : Linked t) {message : ChatMessage}
    (hmessage : message ∈ t.database.interaction.chatMessages) :
    ∃ session ∈ t.database.interaction.chatSessions, session.id = message.sessionId :=
  List.mem_map.mp (h _ (List.mem_map_of_mem hmessage))

/-! ## Operations that keep the links -/

section

variable {α : Type}

/-- Operations on usage and behaviour leave conversations alone. -/
theorem keepsLinks_onInteraction {m : Act InteractionTables StorageError α}
    (h : Keeps (Same chatLinks) m) : Keeps (Same links) (onDatabase (onInteraction m)) :=
  fun t => h t.database.interaction

theorem keepsLinks_onCache (m : Act ResponseCache.CacheTables StorageError α) :
    Keeps (Same links) (onCache m) :=
  fun _ => rfl

end

theorem keepsLinks_appendActivity (event : ActivityEvent) :
    Keeps (Same chatLinks) (appendActivity event) :=
  (keeps_require _ _).bind fun _ => (keeps_gets fun t => t).bind fun _ =>
    (keeps_require _ _).bind fun _ => (keeps_orThrow _ _).bind fun _ => keeps_modify fun _ => rfl

theorem keepsLinks_addUsage (delta : UsageStats) : Keeps (Same chatLinks) (addUsage delta) :=
  (keeps_require _ _).bind fun _ => (keeps_gets _).bind fun _ =>
    (keeps_require _ _).bind fun _ => keeps_modify fun _ => rfl

theorem keepsLinks_recordIntentUsage (event : IntentUsageEvent) :
    Keeps (Same chatLinks) (recordIntentUsage event) :=
  (keeps_require _ _).bind fun _ => Keeps.transaction <| (keeps_gets _).bind fun _ =>
    (keeps_require _ _).bind fun _ => (keeps_orThrow _ _).bind fun _ => keeps_modify fun _ => rfl

theorem keepsLinks_recordCorrection (item : Correction) :
    Keeps (Same chatLinks) (recordCorrection item) :=
  (keeps_require _ _).bind fun _ => (keeps_gets _).bind fun _ =>
    (keeps_orThrow _ _).bind fun _ => keeps_modify fun _ => rfl

/-- Removing a provider leaves messages in their conversations. -/
theorem keepsLinks_deleteProvider (id : ProviderId) : Keeps (Same links) (deleteProvider id) := by
  refine (keeps_gets fun t => t).bind fun t => ?_
  apply keeps_modify
  intro s
  split
  · exact refl_of (Same links) s
  · unfold Same links chatLinks
    rw [List.map_map]
    rfl

/-- Only two operations touch conversations. -/
theorem keepsLinks_interaction {operation : InteractionOperation}
    (hsession : ∀ requested title nowMs fresh,
      operation ≠ .ensureChatSession requested title nowMs fresh)
    (hmessage : ∀ message, operation ≠ .appendChatMessage message) :
    Keeps (Same links) operation.perform := by
  cases operation with
  | updateApplicationSettings settings nowMs =>
      exact (keeps_ofExcept _).bind fun _ => (keeps_require _ _).bind fun _ =>
        keeps_modify fun _ => rfl
  | upsertProvider provider => exact fun _ => rfl
  | removeProvider id => exact keepsLinks_deleteProvider id
  | upsertModel model =>
      exact (keeps_require _ _).bind fun _ => (keeps_gets fun t => t).bind fun _ =>
        (keeps_require _ _).bind fun _ => keeps_modify fun _ => rfl
  | ensureChatSession requested title nowMs fresh =>
      exact absurd rfl (hsession requested title nowMs fresh)
  | appendChatMessage message => exact absurd rfl (hmessage message)
  | appendActivity event => exact keepsLinks_onInteraction (keepsLinks_appendActivity event)
  | storeResponseCandidate entry =>
      exact (keeps_gets fun t => t).bind fun _ => keepsLinks_onCache _
  | recordCacheHit id nowMs estimatedTokensAvoided => exact keepsLinks_onCache _
  | applyResponseFeedback id feedback => exact keepsLinks_onCache _
  | addUsage delta => exact keepsLinks_onInteraction (keepsLinks_addUsage delta)
  | setMemoryState id pinned disabled priorityPermille =>
      apply keeps_discardValue
      exact fun _ => rfl

theorem keepsLinks_runtime (codec : ArgumentsCodec) (operation : RuntimeOperation) :
    Keeps (Same links) (operation.perform codec) := by
  cases operation with
  | upsertRegisteredApplication application => exact fun _ => rfl
  | removeRegisteredApplication entityId => exact fun _ => rfl
  | beginDaemonSession session => exact fun _ => rfl
  | finishDaemonSession id endedAtMs => exact keeps_discardValue fun _ => rfl
  | beginAgentSession session => exact fun _ => rfl
  | finishAgentSession id status endedAtMs => exact keeps_discardValue fun _ => rfl

theorem keepsLinks_security (serde : ScopeCodec) (codec : ArgumentsCodec)
    (operation : SecurityOperation) : Keeps (Same links) (operation.perform serde codec) := by
  have hdatabase : ∀ {m : Act Database StorageError Unit},
      Keeps (Same Database.interaction) m → Keeps (Same links) (onDatabase m) :=
    fun h t => congrArg chatLinks (h t.database)
  cases operation with
  | updateSecurityProfile profile nowMs => exact fun _ => rfl
  | upsertPermissionGrant grant => exact fun _ => rfl
  | revokePermission id nowMs => exact fun _ => rfl
  | consumePermission id => exact fun _ => rfl
  | claimPermissionForProposal proposal session agentId nowMs =>
      exact keeps_discardValue fun _ => rfl
  | upsertResourceLabel label =>
      exact hdatabase <| (keeps_gets Database.labels).bind fun _ => (keeps_ofExcept _).bind fun _ =>
        keeps_modify fun _ => rfl
  | removeResourceLabel id => exact keeps_discardValue fun _ => rfl
  | recordIntentUsage event =>
      exact keepsLinks_onInteraction (keepsLinks_recordIntentUsage event)
  | upsertAgent agent =>
      exact hdatabase <| (keeps_gets Database.agents).bind fun _ => (keeps_ofExcept _).bind fun _ =>
        keeps_modify fun _ => rfl
  | removeAgent id => exact keeps_discardValue fun _ => rfl

theorem keepsLinks_queue (operation : QueueOperation) :
    Keeps (Same links) operation.perform := by
  cases operation with
  | insertEntity entity => exact fun _ => rfl
  | enqueueUnknown item => exact fun _ => rfl
  | recordCorrection item => exact keepsLinks_onInteraction (keepsLinks_recordCorrection item)
  | storeAiProposal proposal => exact fun _ => rfl

/-! ## The links over a run -/

/-- The links depend on the identifiers alone. -/
theorem Linked.of_same {t t' : Tables} (h : Linked t) (hsame : Same links t t') : Linked t' := by
  unfold Linked
  rw [show links t' = links t from hsame]
  exact h

theorem links_touchSession (message : ChatMessage) (sessions : List ChatSession) :
    (touchSession message sessions).map ChatSession.id = sessions.map ChatSession.id := by
  unfold touchSession updateRows
  rw [List.map_map]
  apply List.map_congr_left
  intro session _
  dsimp only [Function.comp]
  split <;> rfl

/-- A message that is accepted is linked. -/
theorem Linked.withMessage {t : Tables} {message : ChatMessage} (h : Linked t)
    (haccepted : MessageAccepted t message) : Linked (withMessage message t) := by
  intro id hid
  have hsessions : (links (Conversations.withMessage message t)).1 = (links t).1 :=
    links_touchSession message _
  have hmessages : (links (Conversations.withMessage message t)).2 =
      (links t).2 ++ [message.sessionId] := by
    simp [links, chatLinks, Conversations.withMessage, withInteraction]
  rw [hsessions]
  rw [hmessages, List.mem_append, List.mem_singleton] at hid
  rcases hid with hold | rfl
  · exact h id hold
  · obtain ⟨session, hmem, heq⟩ := List.any_eq_true.mp haccepted.storable.session
    exact List.mem_map.mpr ⟨session, hmem, beq_iff_eq.mp heq⟩

/-- A new conversation keeps the links. -/
theorem Linked.ensureChatSession {t : Tables} (h : Linked t) (requested : Option ChatSessionId)
    (title : String) (nowMs : Int) (fresh : ChatSessionId) :
    Linked ((InteractionOperation.ensureChatSession requested title nowMs fresh).perform t).2 := by
  have hpost : Post (InteractionOperation.ensureChatSession requested title nowMs fresh).perform t
      fun _ t' => Linked t' := by
    rw [InteractionOperation.perform, discardValue, post_bind, post_onDatabase, post_onInteraction]
    apply (ensureChatSession_spec requested title nowMs fresh t.database.interaction).mono
    intro r rows hr
    cases r with
    | error e =>
        rw [next_error, show rows = t.database.interaction from hr]
        exact h
    | ok session =>
        rw [next_ok, post_pure]
        rcases hr with ⟨-, -, rfl⟩ | ⟨-, -, -, rfl⟩
        · exact h
        · intro id hid
          obtain ⟨stored, hstored, hid⟩ := List.mem_map.mp (h id hid)
          exact List.mem_map.mpr ⟨stored, List.mem_append_left _ hstored, hid⟩
  exact hpost

/-- Every operation keeps the links. -/
theorem linked_interaction {t : Tables} (h : Linked t) (operation : InteractionOperation) :
    Linked (operation.perform t).2 := by
  cases operation with
  | ensureChatSession requested title nowMs fresh =>
      exact h.ensureChatSession requested title nowMs fresh
  | appendChatMessage message =>
      have hspec := appendMessage_spec message t
      rw [Post] at hspec
      rcases hspec with ⟨-, haccepted, hrows⟩ | ⟨-, -, hsame⟩
      · rw [hrows]
        exact h.withMessage haccepted
      · rw [hsame]
        exact h
  | _ => exact h.of_same (keepsLinks_interaction (by simp) (by simp) t)

/-- So does every call, refused or not. -/
theorem linked_call (serde : ScopeCodec) (codec : ArgumentsCodec) (t : Tables) (call : Call)
    (h : Linked t) : Linked (call.perform serde codec t).2 := by
  have hpost : Post (call.perform serde codec) t fun _ t' => Linked t' := by
    rw [Call.perform, post_bind, post_require]
    constructor
    · intro _
      rw [next_ok]
      cases call.operation with
      | interaction operation => exact linked_interaction h operation
      | runtime operation => exact h.of_same (keepsLinks_runtime codec operation t)
      | security operation => exact h.of_same (keepsLinks_security serde codec operation t)
      | queue operation => exact h.of_same (keepsLinks_queue operation t)
      | appendAudit record => exact h.of_same rfl
      | recordExecution receipt records => exact h.of_same rfl
      | persistMemoryRevision fails auditId item revision evidence => exact h.of_same rfl
    · intro _
      exact h
  exact hpost

/-- In every reached database each message has its conversation. -/
theorem linked_reached (serde : ScopeCodec) (codec : ArgumentsCodec) (calls : List Call) :
    Linked (reached serde codec calls) := by
  apply run_invariant (I := Linked) (linked_call serde codec)
  intro id hid
  cases hid

end Halquen.Storage.Conversations
