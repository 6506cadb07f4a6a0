import Halquen.Service.KeyTexts
import Halquen.Service.MemoryFrame
import Halquen.Service.MemoryHistory
import Halquen.Service.Snapshot

/-!
# Names that the user gives to applications

A remembered preference stands for an application: a chat that opens its key opens the application
that is its value, and a chat that forgets its key disables it. Both hold if and only if the key is
what cleaning leaves of its lower case (`remembered_key`), for the key is stored as it was written
and is looked up as it was read back.
-/

set_option autoImplicit false

namespace Halquen.Service.Aliases

open Halquen.Domain.Ids Halquen.Domain.Capability Halquen.Domain.Security Halquen.Domain.Interaction
open Halquen.Policy.Engine Halquen.Capabilities.Executor Halquen.Memory.Semantic
open Halquen.Protocol.Messages
open Halquen.Library.Action Halquen.Library.Action.Act Halquen.Library.Run Halquen.Library.Sql
open Halquen.Service.ChatParser Halquen.Service.TextCuts Halquen.Service.KeyTexts
open Halquen.Service.State Halquen.Service.Proposals Halquen.Service.MemoryService
open Halquen.Service.MemoryHistory Halquen.Service.Chat Halquen.Service.Handler
open Halquen.Service.Evolution Halquen.Service.MemoryFrame Halquen.Service.Snapshot
open Halquen.Service.Walk
open Halquen.Storage.Grants (StorageError)
open Halquen.Storage.Interaction Halquen.Storage.Memory Halquen.Storage.MemoryChain
open Halquen.Storage.Sqlite

/-! ## Preferences in the tables -/

/-- The row is an enabled preference. -/
def Prefers (t : MemoryTables) (key value : String) (row : MemoryItemRow) : Prop :=
  row.disabled = false ∧ ∃ joined, row.join t = some joined ∧
    joined.2.value = .preference key value

theorem isPreference_iff (value : MemoryValue) (key : String) :
    isPreference value key = true ↔ ∃ text, value = .preference key text := by
  cases value with
  | preference key' text => simp [isPreference]
  | _ => simp [isPreference]

/-- What the lookup finds is an enabled preference of the key. -/
theorem prefers_of_preferenceByKey {t : MemoryTables} {key : String}
    {found : MemoryItem × MemoryRevision} (h : preferenceByKey t key = some found) :
    ∃ row ∈ t.items, row.id = found.1.id ∧ ∃ value, found.2.value = .preference key value ∧
      Prefers t key value row := by
  obtain ⟨before, row, after, hitems, hrow, -⟩ := List.findSome?_eq_some_iff.mp h
  refine ⟨row, by rw [hitems]; simp, ?_⟩
  split at hrow
  · cases hrow
  · rename_i henabled
    obtain ⟨hjoin, hpreference⟩ := Option.filter_eq_some_iff.mp hrow
    obtain ⟨value, hvalue⟩ := (isPreference_iff _ _).mp hpreference
    refine ⟨?_, value, hvalue, by simpa using henabled, found, hjoin, hvalue⟩
    unfold MemoryItemRow.join at hjoin
    simp only [bind, Option.bind_eq_some_iff] at hjoin
    obtain ⟨_, -, _, -, hjoined⟩ := hjoin
    cases hjoined
    rfl

theorem preferenceByKey_eq_none_iff {t : MemoryTables} {key : String} :
    preferenceByKey t key = none ↔ ∀ row ∈ t.items, ∀ value, ¬ Prefers t key value row := by
  constructor
  · intro h row hrow value hprefers
    obtain ⟨henabled, joined, hjoin, hvalue⟩ := hprefers
    have hnone := List.findSome?_eq_none_iff.mp h row hrow
    rw [henabled, if_neg Bool.false_ne_true, hjoin, Option.filter_eq_none_iff] at hnone
    exact hnone joined rfl ((isPreference_iff _ _).mpr ⟨value, hvalue⟩)
  · intro h
    cases hfound : preferenceByKey t key with
    | none => rfl
    | some found =>
        obtain ⟨row, hrow, -, value, -, hprefers⟩ := prefers_of_preferenceByKey hfound
        exact absurd hprefers (h row hrow value)

/-- The value is remembered under the key, by one item. -/
structure Remembered (t : MemoryTables) (key value : String) (id : MemoryId) : Prop where
  keys : UniqueKey MemoryItemRow.id t.items
  stored : ∃ row ∈ t.items, row.id = id ∧ Prefers t key value row
  only : ∀ row ∈ t.items, ∀ value', Prefers t key value' row → row.id = id

theorem Prefers.eq {t : MemoryTables} {key key' value value' : String} {row : MemoryItemRow}
    (h : Prefers t key value row) (h' : Prefers t key' value' row)
    : key = key' ∧ value = value' := by
  obtain ⟨-, joined, hjoin, hvalue⟩ := h
  obtain ⟨-, joined', hjoin', hvalue'⟩ := h'
  rw [hjoin, Option.some.injEq] at hjoin'
  rw [← hjoin', hvalue] at hvalue'
  exact MemoryValue.preference.inj hvalue'

/-- The lookup finds what is remembered. -/
theorem Remembered.lookup {t : MemoryTables} {key value : String} {id : MemoryId}
    (h : Remembered t key value id) : ∃ found, preferenceByKey t key = some found ∧
      found.1.id = id ∧ found.2.value = .preference key value := by
  obtain ⟨row, hrow, hid, hprefers⟩ := h.stored
  cases hfound : preferenceByKey t key with
  | none => exact absurd hprefers (preferenceByKey_eq_none_iff.mp hfound row hrow value)
  | some found =>
      obtain ⟨row', hrow', hid', value', hvalue, hprefers'⟩ := prefers_of_preferenceByKey hfound
      have hsame : row'.id = id := h.only row' hrow' value' hprefers'
      obtain rfl : row' = row := h.keys.eq_of_mem hrow' hrow (hsame.trans hid.symm)
      rw [(hprefers'.eq hprefers).2] at hvalue
      exact ⟨found, rfl, hid'.symm.trans hsame, hvalue⟩

/-- A submission leaves what the items before it are joined with. -/
theorem join_value_persisted {t t' : MemoryTables} {item : MemoryItem} {revision : MemoryRevision}
    (ht : Consistent t) (h : Persisted t item revision t') {row : MemoryItemRow}
    (hrow : row ∈ t.items) :
    (row.join t').map (fun joined => joined.2.value) =
      (row.join t).map fun joined => joined.2.value := by
  have hlinear := ht.linear row hrow
  cases hhead : row.currentRevisionId with
  | none => simp [MemoryItemRow.join, hhead]
  | some head =>
      -- The head is stored before the submission, so the search ends before the new revision.
      have hstored : ∃ r ∈ t.revisions, r.id = head := by
        have htip := hlinear.head
        rw [hhead] at htip
        obtain ⟨rest, last, hrest⟩ :=
          (List.eq_nil_or_concat (revisionsOf t row.id)).resolve_left hlinear.nonempty
        rw [List.concat_eq_append] at hrest
        rw [hrest, Library.LinkedChain.tip_append] at htip
        have hlast : last ∈ revisionsOf t row.id := by simp [hrest]
        exact ⟨last, (List.mem_filter.mp hlast).1, (Option.some.inj htip).symm⟩
      obtain ⟨r, hr, hid⟩ := hstored
      have hfind : t'.revisions.find? (fun r => r.id == head) =
          t.revisions.find? fun r => r.id == head := by
        rw [h.revisions, List.find?_append]
        cases hfound : t.revisions.find? fun r => r.id == head with
        | some found => rfl
        | none => exact absurd (beq_iff_eq.mpr hid) (List.find?_eq_none.mp hfound r hr)
      simp only [MemoryItemRow.join, hhead, hfind, bind, Option.bind_some]
      cases t.revisions.find? fun r => r.id == head <;> rfl

/-- What a row prefers depends on its newest value. -/
theorem prefers_iff_of_join_value {t t' : MemoryTables} {row : MemoryItemRow}
    (h : (row.join t').map (fun joined => joined.2.value) =
      (row.join t).map fun joined => joined.2.value) (key value : String) :
    Prefers t' key value row ↔ Prefers t key value row := by
  have hmap : ∀ t : MemoryTables, (∃ joined, row.join t = some joined ∧
      joined.2.value = .preference key value) ↔
      (row.join t).map (fun joined => joined.2.value) = some (.preference key value) := by
    intro t
    rw [Option.map_eq_some_iff]
  unfold Prefers
  rw [hmap t', hmap t, h]

/-- The first revision of a new item is remembered. -/
theorem remembered_of_persisted {t t' : MemoryTables} {item : MemoryItem}
    {revision : MemoryRevision}
    {key value : String} (ht : Consistent t) (hnone : preferenceByKey t key = none)
    (h : Persisted t item revision t') (hprevious : revision.previousRevisionId = none)
    (hvalue : revision.value = .preference key value) : Remembered t' key value item.id := by
  rw [preferenceByKey_eq_none_iff] at hnone
  refine ⟨itemKeys_persisted h ht.itemKeys, ?_, ?_⟩
  all_goals
    rcases h.head with ⟨hnew, -, hitems⟩ | ⟨_, _, _, -, -, -, hsome, -⟩
    case inr =>
      rw [hprevious] at hsome
      cases hsome
  · refine ⟨(MemoryItemRow.ofItem item).withHead revision.id item.updatedAtMs,
      by simp [hitems], rfl,
      rfl, ?_⟩
    have hfind : t'.revisions.find? (fun r => r.id == revision.id) =
        some (.ofRevision revision) := by
      rw [h.revisions, List.find?_append, List.find?_eq_none.mpr fun r hr => by
        simpa using h.fresh r hr]
      simp [MemoryRevisionRow.ofRevision]
    simp only [MemoryItemRow.join, MemoryItemRow.withHead, hfind, bind, Option.bind_some]
    exact ⟨_, rfl, hvalue⟩
  · intro row hrow value' hprefers
    rw [hitems] at hrow
    rcases List.mem_append.mp hrow with hold | hnew
    · exact absurd ((prefers_iff_of_join_value (join_value_persisted ht h hold) key value').mp
        hprefers) (hnone row hold value')
    · rw [List.mem_singleton.mp hnew]
      rfl

/-- The tables after a chat that forgets a key. -/
def forgotten (key : String) (t : MemoryTables) : MemoryTables :=
  match preferenceByKey t key with
  | some found => { t with
      items := updateRows (fun row => eq (some row.id) (some found.1.id))
        (fun row => { row with disabled := true }) t.items }
  | none => t

/-- Forgetting disables a row and leaves what it prefers. -/
theorem prefers_forgotten_iff {t : MemoryTables} {key key' value : String} {row : MemoryItemRow} :
    Prefers (forgotten key' t) key value row ↔ Prefers t key value row := by
  unfold forgotten
  split <;> rfl

/-- Forgetting the key leaves no preference of it. -/
theorem Remembered.forgotten_eq_none {t : MemoryTables} {key value : String} {id : MemoryId}
    (h : Remembered t key value id) : preferenceByKey (forgotten key t) key = none := by
  obtain ⟨found, hfound, hid, -⟩ := h.lookup
  rw [preferenceByKey_eq_none_iff]
  intro row hrow value' hprefers
  rw [prefers_forgotten_iff] at hprefers
  unfold forgotten at hrow
  rw [hfound] at hrow
  rcases (mem_updateRows _ _ _ _).mp hrow with ⟨old, -, -, rfl⟩ | ⟨hold, hother⟩
  · cases hprefers.1
  · have hsame : row.id = found.1.id := (h.only row hold value' hprefers).trans hid.symm
    apply hother
    rw [hsame]
    simp

/-- Forgetting another key leaves the preference. -/
theorem Remembered.forgotten_ne_none {t : MemoryTables} {key key' value : String} {id : MemoryId}
    (h : Remembered t key value id) (hne : key' ≠ key) :
    preferenceByKey (forgotten key' t) key ≠ none := by
  obtain ⟨row, hrow, hid, hprefers⟩ := h.stored
  rw [Ne, preferenceByKey_eq_none_iff]
  intro hnone
  refine hnone row ?_ value (prefers_forgotten_iff.mpr hprefers)
  unfold forgotten
  split
  · rename_i found hfound
    obtain ⟨row', hrow', hid', value', -, hprefers'⟩ := prefers_of_preferenceByKey hfound
    refine (mem_updateRows _ _ _ _).mpr (.inr ⟨hrow, ?_⟩)
    rw [holds_eq]
    rintro ⟨-, hsame⟩
    -- One row cannot be a preference of both keys.
    obtain rfl : row = row' :=
      h.keys.eq_of_mem hrow hrow' ((Option.some.inj hsame).trans hid'.symm)
    exact hne (hprefers'.eq hprefers).1
  · exact hrow

/-! ## Chats up to their intent -/

section

variable (W : World)

/-- A chat before it acts on its intent. -/
def receive (request : ChatRequest) (correlationId : String) :
    Operation (ChatSession × ChatMessage × Option LocalIntent) := do
  let message := String.ofList (trim request.message.toList)
  require (message != "" && decide (message.utf8ByteSize ≤ 16384))
    (validation "message must contain between 1 and 16384 bytes")
  let timestamp ← now W
  let fresh ← generate W .chatSession
  let session ← query W .ensureChatSession
    (onInteraction (ensureChatSession request.sessionId message timestamp fresh))
  let id ← generate W .chatMessage
  let userMessage := userMessageOf id session.id message timestamp
  query W .appendChatMessage (onInteraction (appendChatMessage userMessage))
  activity W (some session.id) correlationId .requestReceived "Request received" none
  let resolved ← orThrow .panicked (resolveLocal W.tables message.toList)
  return (session, userMessage, resolved)

/-- What a chat goes on with. -/
def actOn (request : ChatRequest) (correlationId : String) :
    ChatSession × ChatMessage × Option LocalIntent → Operation ProtocolResponse
  | (session, userMessage, some intent) =>
      handleLocalIntent W session userMessage correlationId intent
  | (session, userMessage, none) => Chat.respond W request session userMessage correlationId

/-- A chat is received, then acted on. -/
theorem chat_eq (request : ChatRequest) (correlationId : String) :
    chat W request correlationId =
      receive W request correlationId >>= actOn W request correlationId := by
  simp only [chat, receive, bind_assoc]
  congr! 15
  funext resolved
  cases resolved <;> rfl

/-- The application that is opened for a name. -/
def openTarget (displayName : String) (entityId : EntityId) : Operation (String × EntityId) := do
  let preferred ← read W .preferenceByKey fun d => .ok (preferenceByKey d.memory displayName)
  return aliased W displayName entityId preferred

/-- What follows the execution of an open proposal. -/
def answerOpen (proposal : ActionProposal) (target : String × EntityId) (session : ChatSession)
    (userMessage : ChatMessage) (correlationId : String) (response : ProtocolResponse) :
    Operation ProtocolResponse := do
  let result ← answerExecution W proposal target.2 target.1 session correlationId response
  countUsage W oneLocalResolution
  activity W (some session.id) correlationId .localRouteHit "Resolved locally as system.open_app"
    (some "No AI used")
  answer W session userMessage result.1 .localCapability result.2

/-- Opening an application is executing a proposal for its target. -/
theorem openApp_eq (displayName : String) (entityId : EntityId) (session : ChatSession)
    (userMessage : ChatMessage) (correlationId : String) :
    openApp W displayName entityId session userMessage correlationId = (do
      let target ← openTarget W displayName entityId
      let proposal ← proposeOpen W correlationId target.2
      let response ← executeProposal W proposal (some session.id)
      answerOpen W proposal target session userMessage correlationId response) := by
  simp only [openApp, openTarget, executeOpen, answerOpen, bind_assoc]
  rfl

/-- The proposal that a chat has executed, if it opens an application. -/
def proposed (request : ChatRequest) (correlationId : String) :
    Operation (Option ActionProposal) := do
  let received ← receive W request correlationId
  match received.2.2 with
  | some (.openApp displayName entityId) => do
      let target ← openTarget W displayName entityId
      let proposal ← proposeOpen W correlationId target.2
      return some proposal
  | _ => return none

variable {W} in
/-- A chat for which this is a proposal executes it, and does nothing else before it than what
found it. -/
theorem chat_of_proposed {request : ChatRequest} {correlationId : String}
    {proposal : ActionProposal} {s s' : ServiceState}
    (h : proposed W request correlationId s = (.ok (some proposal), s')) :
    ∃ target session userMessage,
      chat W request correlationId s =
        (executeProposal W proposal (some session.id) >>=
          answerOpen W proposal target session userMessage correlationId) s' := by
  obtain ⟨received, s₁, hreceive, hnext⟩ := exists_of_bind_eq_ok h
  obtain ⟨session, userMessage, resolved⟩ := received
  rw [chat_eq, bind_of_ok hreceive, actOn.eq_def]
  cases resolved with
  | none => cases hnext
  | some intent =>
      cases intent with
      | openApp displayName entityId =>
          obtain ⟨target, s₂, htarget, hnext⟩ := exists_of_bind_eq_ok hnext
          obtain ⟨opened, s₃, hopened, hnext⟩ := exists_of_bind_eq_ok hnext
          cases hnext
          refine ⟨target, session, userMessage, ?_⟩
          dsimp only [handleLocalIntent]
          rw [openApp_eq, bind_of_ok htarget, bind_of_ok hopened]
      | rememberPreference key value => cases hnext
      | forgetPreference key => cases hnext
      | contextualOpenApp => cases hnext
      | correctOpenApp rejected accepted => cases hnext

end

section

variable {W : World} {α : Type}

/-! ## Steps beside the memory -/

/-- Receiving a message leaves the memory alone. -/
theorem keeps_sameMemory_receive (request : ChatRequest) (correlationId : String) :
    Keeps SameMemory (receive W request correlationId) := by
  refine (keeps_require _ _).bind fun _ => ?_
  refine (keeps_now basics_sameMemory).bind fun _ => ?_
  refine (keeps_generate basics_sameMemory _).bind fun _ => ?_
  refine (keeps_query basics_sameMemory (keeps_elsewhere_onInteraction _)).bind fun session => ?_
  refine (keeps_generate basics_sameMemory _).bind fun _ => ?_
  refine (keeps_query basics_sameMemory (keeps_elsewhere_onInteraction _)).bind fun _ => ?_
  refine (keeps_activity basics_sameMemory _ _ _ _ _).bind fun _ => ?_
  exact (keeps_orThrow _ _).bind fun _ => keeps_pure _

/-- Only the interaction tables are given to the response cache and to the AI gateway. -/
theorem keeps_sameMemory_respond (request : ChatRequest) (session : ChatSession)
    (userMessage : ChatMessage) (correlationId : String) :
    Keeps SameMemory (Chat.respond W request session userMessage correlationId) := fun _ => rfl

/-- The intent of a chat is what its message resolves to. -/
theorem returns_receive (request : ChatRequest) (correlationId : String) (s : ServiceState) :
    Returns (receive W request correlationId) s fun received s' =>
      resolveLocal W.tables (trim request.message.toList) = some received.2.2 ∧
        SameMemory s s' := by
  have hintent : Returns (receive W request correlationId) s fun received _ =>
      resolveLocal W.tables (trim request.message.toList) = some received.2.2 := by
    -- Nothing is needed about what comes before the message is resolved.
    simp only [receive, returns_bind]
    iterate 7 refine returns_of_forall fun _ _ => ?_
    simp only [returns_orThrow, returns_pure, String.toList_ofList]
    exact fun resolved hresolved => hresolved
  exact hintent.and ((keeps_sameMemory_receive request correlationId).returns s)

/-! ## Remembering -/

/-- A preference without an enabled item becomes the first revision of a new one. -/
theorem returns_commitPreference {key value : String} (sourceReference : String) {s : ServiceState}
    (hs : Consistent s.data.database.memory)
    (hnone : preferenceByKey s.data.database.memory key = none) :
    Returns (commitPreference W key value sourceReference) s fun _ s' =>
      ∃ id, Remembered s'.data.database.memory key value id := by
  simp only [commitPreference, returns_bind, returns_now, returns_generate, returns_pure]
  refine (returns_read rfl _ _).mono ?_
  rintro existing s₁ ⟨hexisting, hdata₁, -⟩
  cases hexisting
  simp only [ServiceState.data_next] at hdata₁ ⊢
  rw [hnone]
  simp only [preferenceRevision, returns_bind, returns_generate, returns_pure]
  refine returns_persist fun s' hpersisted => ?_
  simp only [ServiceState.data_next, hdata₁] at hpersisted
  exact ⟨_, remembered_of_persisted hs hnone hpersisted rfl rfl⟩

/-- After remembering, the preference is found under its key. -/
theorem returns_rememberPreference {key value : String} (session : ChatSession)
    (userMessage : ChatMessage) (correlationId : String) {s : ServiceState}
    (hs : Consistent s.data.database.memory)
    (hnone : preferenceByKey s.data.database.memory key = none) :
    Returns (rememberPreference W key value session userMessage correlationId) s fun _ s' =>
      ∃ id, Remembered s'.data.database.memory key value id := by
  unfold rememberPreference
  rw [returns_bind]
  refine (returns_commitPreference _ hs hnone).mono ?_
  rintro - s₁ ⟨id, hremembered⟩
  have hrest : Keeps SameMemory (do
      countUsage W oneLocalResolution
      activity W (some session.id) correlationId .memoryCommitted
        "Explicit preference stored as versioned semantic memory" (some (key ++ " → " ++ value))
      answer W session userMessage ("Remembered.\n" ++ key ++ " → " ++ value)
        .localMemory none) := by
    refine (keeps_countUsage basics_sameMemory _).bind fun _ => ?_
    refine (keeps_activity basics_sameMemory _ _ _ _ _).bind fun _ => ?_
    exact keeps_answer basics_sameMemory _ _ _ _ _
  refine (hrest.returns s₁).mono fun _ s' hsame => ⟨id, ?_⟩
  unfold SameMemory at hsame
  rw [hsame]
  exact hremembered

/-! ## Forgetting -/

theorem returns_disablePreference (key : String) (session : ChatSession) (correlationId : String)
    {found : MemoryItem × MemoryRevision} {s : ServiceState}
    (hfound : preferenceByKey s.data.database.memory key = some found) :
    Returns (disablePreference W key session correlationId (some found)) s fun _ s' =>
      s'.data.database.memory = forgotten key s.data.database.memory := by
  unfold disablePreference
  rw [returns_bind]
  refine returns_query ?_
  change Post (onMemory _) _ _
  rw [post_onMemory]
  have hdisabled : Returns (setMemoryState found.1.id none (some true) none)
      s.data.database.memory fun _ t => t = forgotten key s.data.database.memory := by
    simp only [setMemoryState, returns_bind, returns_require, returns_gets, returns_modify,
      returns_pure]
    intro _
    rw [forgotten, hfound]
    rfl
  refine Post.mono hdisabled fun r t ht updated hupdated => ?_
  have hrest : Keeps SameMemory (do
      activity W (some session.id) correlationId .memoryCommitted "Memory item disabled" (some key)
      return "Forgot the preference “" ++ key ++ "”." : Operation String) :=
    (keeps_activity basics_sameMemory _ _ _ _ _).bind fun _ => keeps_pure _
  refine (hrest.returns _).mono fun _ s' hsame => ?_
  unfold SameMemory at hsame
  rw [hsame]
  exact ht updated hupdated

/-- After forgetting, it is not. -/
theorem returns_forgetPreference (key : String) (session : ChatSession) (userMessage : ChatMessage)
    (correlationId : String) (s : ServiceState) :
    Returns (forgetPreference W key session userMessage correlationId) s fun _ s' =>
      s'.data.database.memory = forgotten key s.data.database.memory := by
  simp only [forgetPreference, returns_bind]
  refine (returns_read rfl _ _).mono ?_
  rintro existing s₁ ⟨hexisting, hdata₁, -⟩
  have hdisabled : Returns (disablePreference W key session correlationId existing) s₁ fun _ s' =>
      s'.data.database.memory = forgotten key s.data.database.memory := by
    have hfound := Except.ok.inj hexisting
    rw [← hdata₁] at hfound ⊢
    cases existing with
    | some found => exact returns_disablePreference key session correlationId hfound
    | none =>
        simp only [disablePreference, returns_pure]
        rw [forgotten, hfound]
  refine hdisabled.mono fun content s₂ hforgotten => ?_
  refine ((keeps_countUsage basics_sameMemory _).returns s₂).mono fun _ s₃ hsame₃ => ?_
  refine ((keeps_answer basics_sameMemory _ _ _ _ _).returns s₃).mono fun _ s₄ hsame₄ => ?_
  exact (trans_of SameMemory hsame₃ hsame₄).trans hforgotten

/-! ## Chats about a key -/

/-- In every reached state the memory is consistent. -/
theorem consistent_after (registry : CapabilityRegistry) (policy : PolicyEngine)
    (inputs : List Input) : Consistent (after W registry policy inputs).data.database.memory := by
  refine invariant_after (I := fun d => Consistent d.database.memory) ?_ consistent_empty inputs
  intro d d' hstep hd
  cases hstep with
  | quiet _ hmemory => exact hmemory.consistent hd
  | noted _ hmemory => exact hmemory.consistent hd
  | recorded _ _ _ _ hmemory => rwa [hmemory]
  | awaiting _ _ _ _ hmemory => rwa [hmemory]
  | refused _ _ _ hmemory => rwa [hmemory]
  | lost _ hmemory => exact hmemory.consistent hd

/-- This holds of the chat as a whole. -/
theorem returns_chat_remember {request : ChatRequest} (correlationId : String) {key value : String}
    {s : ServiceState} (hparsed : resolveLocal W.tables (trim request.message.toList) =
      some (some (.rememberPreference key value)))
    (hs : Consistent s.data.database.memory)
    (hnone : preferenceByKey s.data.database.memory key = none) :
    Returns (chat W request correlationId) s fun _ s' =>
      ∃ id, Remembered s'.data.database.memory key value id := by
  rw [chat_eq, returns_bind]
  refine (returns_receive request correlationId s).mono ?_
  rintro ⟨session, userMessage, resolved⟩ s₁ ⟨hresolved, hsame⟩
  rw [hparsed] at hresolved
  cases hresolved
  unfold SameMemory at hsame
  rw [← hsame] at hs hnone
  exact returns_rememberPreference session userMessage correlationId hs hnone

/-- A chat that forgets a key forgets the key that is read back. -/
theorem returns_chat_forget (hreads : ReadsWords W.tables) {key : String} (hne : key.toList ≠ [])
    (htrimmed : Trimmed isWhiteSpace key.toList) {request : ChatRequest}
    (hrequest : request.message = "forget " ++ key) (correlationId : String) (s : ServiceState) :
    Returns (chat W request correlationId) s fun _ s' =>
      s'.data.database.memory = ((cleanFragment (W.tables.toLowercase key.toList)).elim id
        fun fragment => forgotten (String.ofList fragment)) s.data.database.memory := by
  have hmessage : trim request.message.toList = "forget ".toList ++ key.toList := by
    rw [hrequest, String.toList_append]
    exact (trimmed_append 'f' "orget ".toList (by decide) htrimmed hne).trimMatches_eq
  rw [chat_eq, returns_bind]
  refine (returns_receive _ correlationId s).mono ?_
  rintro ⟨session, userMessage, resolved⟩ s₁ ⟨hresolved, hsame⟩
  rw [hmessage, resolveLocal_forget hreads hne htrimmed] at hresolved
  unfold SameMemory at hsame
  rw [← hsame]
  cases hclean : cleanFragment (W.tables.toLowercase key.toList) with
  | some fragment =>
      rw [hclean] at hresolved
      cases hresolved
      exact returns_forgetPreference _ session userMessage correlationId s₁
  | none =>
      rw [hclean] at hresolved
      cases hresolved
      exact (keeps_sameMemory_respond _ session userMessage correlationId).returns s₁

/-- The proposal of a chat that opens a remembered key is for the application of its value. -/
theorem returns_proposed (hreads : ReadsWords W.tables) {key value : String}
    (hne : key.toList ≠ []) (htrimmed : Trimmed isWhiteSpace key.toList)
    (hclean : cleanFragment (W.tables.toLowercase key.toList) = some key.toList)
    {app : EntityId} (happ : applicationEntity W.tables value.toList = some app)
    {request : ChatRequest} (hrequest : request.message = "open " ++ key) (correlationId : String)
    {s : ServiceState} {id : MemoryId}
    (hremembered : Remembered s.data.database.memory key value id) :
    Returns (proposed W request correlationId) s fun proposal _ =>
      ∀ p, proposal = some p → p.action.arguments = .openApp app := by
  -- The key is trimmed and not empty, so the message loses nothing.
  have hmessage : trim request.message.toList = "open ".toList ++ key.toList := by
    rw [hrequest, String.toList_append]
    exact (trimmed_append 'o' "pen ".toList (by decide) htrimmed hne).trimMatches_eq
  unfold proposed
  rw [returns_bind]
  refine (returns_receive _ correlationId s).mono ?_
  rintro ⟨session, userMessage, resolved⟩ s₁ ⟨hresolved, hsame⟩
  rw [hmessage] at hresolved
  dsimp only at hresolved ⊢
  split
  · rename_i displayName entityId
    -- The name in the message is the key as it was remembered.
    have hname := resolveLocal_open hreads hne htrimmed hresolved
    rw [hclean, Option.some.injEq, String.toList_inj] at hname
    subst hname
    unfold SameMemory at hsame
    rw [← hsame] at hremembered
    -- The alias of the name is the remembered value, which names the application.
    obtain ⟨found, hfound, -, hvalue⟩ := hremembered.lookup
    simp only [openTarget, returns_bind, returns_pure]
    refine (returns_read rfl _ _).mono ?_
    rintro preferred s₂ ⟨hpreferred, -, -⟩
    have htarget : aliased W key entityId preferred = (value, app) := by
      rw [← Except.ok.inj hpreferred, hfound]
      simp only [aliased, hvalue, happ]
    rw [htarget]
    simp only [proposeOpen, returns_bind, returns_ofExcept]
    refine returns_of_forall fun classification s₃ proposal hproposal => ?_
    rintro p ⟨⟩
    cases hopen : openProposal correlationId app classification with
    | error e =>
        rw [hopen] at hproposal
        cases hproposal
    | ok q =>
        rw [hopen] at hproposal
        cases hproposal
        obtain ⟨-, rfl⟩ := openProposal_eq_ok_iff.mp hopen
        rfl
  · rw [returns_pure]
    intro p hp
    cases hp

end

/-- After a preference has been remembered, opening its key proposes its application and forgetting
its key disables it, if and only if the key is what cleaning leaves of its lower case. -/
theorem remembered_key (W : World) (hreads : ReadsWords W.tables) (registry : CapabilityRegistry)
    (policy : PolicyEngine) (inputs : List Input) (key value : String)
    (request : ChatRequest) (correlationId : String)
    (hparsed : resolveLocal W.tables (trim request.message.toList) =
      some (some (.rememberPreference key value)))
    (hnone : preferenceByKey (after W registry policy inputs).data.database.memory key = none)
    (response : ProtocolResponse) (s₁ : ServiceState)
    (hremembered : chat W request correlationId (after W registry policy inputs) =
      (.ok response, s₁))
    (forget : ChatRequest) (hforget : forget.message = "forget " ++ key) (forgetId : String)
    (response' : ProtocolResponse) (s₂ : ServiceState)
    (hforgotten : chat W forget forgetId s₁ = (.ok response', s₂)) :
    ((∀ app, applicationEntity W.tables value.toList = some app →
        ∀ (opening : ChatRequest) (openId : String) (proposal : ActionProposal)
          (s₃ : ServiceState), opening.message = "open " ++ key →
          proposed W opening openId s₁ = (.ok (some proposal), s₃) →
            proposal.action.arguments = .openApp app) ∧
        preferenceByKey s₂.data.database.memory key = none) ↔
      cleanFragment (W.tables.toLowercase key.toList) = some key.toList := by
  obtain ⟨text, hclean⟩ := cleaned_resolveLocal hparsed
  obtain ⟨hne, htrimmed⟩ := of_cleanFragment hclean
  obtain ⟨id, hkey⟩ := (returns_chat_remember correlationId hparsed
    (consistent_after registry policy inputs) hnone).of_eq hremembered
  have hmemory := (returns_chat_forget hreads hne htrimmed hforget forgetId s₁).of_eq hforgotten
  constructor
  -- Forgetting removes the preference under the key that it reads in the message.
  · rintro ⟨-, hnothing⟩
    rw [hmemory] at hnothing
    cases hread : cleanFragment (W.tables.toLowercase key.toList) with
    | none =>
        -- The message is not about a preference at all.
        rw [hread] at hnothing
        obtain ⟨found, hfound, -⟩ := hkey.lookup
        rw [Option.elim_none, id_eq, hfound] at hnothing
        cases hnothing
    | some fragment =>
        rw [hread] at hnothing
        by_contra hother
        refine hkey.forgotten_ne_none ?_ hnothing
        intro hsame
        apply hother
        rw [← hsame, String.toList_ofList]
  -- If the key reads as itself, opening and forgetting both find it.
  · intro hread
    refine ⟨?_, ?_⟩
    · intro app happ opening openId proposal s₃ hopening hproposed
      exact (returns_proposed hreads hne htrimmed hread happ hopening openId hkey).of_eq hproposed
        proposal rfl
    · rw [hmemory, hread, Option.elim_some, String.ofList_toList]
      exact hkey.forgotten_eq_none

/-! ## A key in lower case, and one in upper case -/

/-- The tables of ASCII read words. -/
theorem readsWords_ascii : ReadsWords asciiTables := by
  constructor
  · intro word text hword
    have hsame : word.map Char.toLower = word :=
      (List.map_congr_left fun c hc => toLower_eq (not_isUpper_of_isLower (hword c hc))).trans
        (List.map_id' word)
    change (word ++ ' ' :: text).map Char.toLower = word ++ ' ' :: text.map Char.toLower
    rw [List.map_append, hsame]
    rfl
  · intro c hc
    exact isAlphanum_iff.mpr (.inr (.inl hc))

/-- Lowers the case of ASCII letters. -/
def aliasWorld : World := .steady (.listed [])

/-- The request to remember a name for an application. -/
def rememberTelegram (key : String) : ChatRequest :=
  ⟨none, "remember that when I say " ++ key ++ " I mean Telegram.", .automatic⟩

/-- The request to forget a name. -/
def forgetKey (key : String) : ChatRequest := ⟨none, "forget " ++ key, .automatic⟩

/-- The first request of a run remembers the key. -/
def telegramRemembered (key : String) : Except Failure ProtocolResponse × ServiceState :=
  chat aliasWorld (rememberTelegram key) "request:1" (after aliasWorld .launching .new [])

/-- The next one forgets it. -/
def telegramForgotten (key : String) : Except Failure ProtocolResponse × ServiceState :=
  chat aliasWorld (forgetKey key) "request:2" (telegramRemembered key).2

/-- The result is not an error. -/
def succeeds {α : Type} : Except Failure α → Bool
  | .ok _ => true
  | .error _ => false

theorem exists_of_succeeds {α : Type} {r : Except Failure α × ServiceState}
    (h : succeeds r.1 = true) : ∃ a, r = (.ok a, r.2) := by
  obtain ⟨value, s⟩ := r
  cases value with
  | ok a => exact ⟨a, rfl⟩
  | error e => cases h

/-- A key in lower case is forgotten. -/
theorem remembered_key_lower :
    preferenceByKey (telegramForgotten "tg").2.data.database.memory "tg" = none := by
  have hparsed : resolveLocal aliasWorld.tables (trim (rememberTelegram "tg").message.toList) =
      some (some (.rememberPreference "tg" "Telegram")) := by decide
  have hrun : preferenceByKey (after aliasWorld .launching .new []).data.database.memory "tg" =
        none ∧
      succeeds (telegramRemembered "tg").1 = true ∧
        succeeds (telegramForgotten "tg").1 = true := by decide +kernel
  obtain ⟨hnone, hremember, hforget⟩ := hrun
  have hread : cleanFragment (aliasWorld.tables.toLowercase "tg".toList) = some "tg".toList := by
    decide +kernel
  obtain ⟨response, hremembered⟩ := exists_of_succeeds hremember
  obtain ⟨response', hforgotten⟩ := exists_of_succeeds hforget
  exact ((remembered_key aliasWorld readsWords_ascii .launching .new [] "tg" "Telegram"
    (rememberTelegram "tg") "request:1" hparsed hnone response _ hremembered (forgetKey "tg") rfl
    "request:2" response' _ hforgotten).mpr hread).2

/-- A key in upper case is remembered and cannot be forgotten. -/
theorem upper_key_kept :
    ¬ ∀ (W : World), ReadsWords W.tables → ∀ (registry : CapabilityRegistry)
      (policy : PolicyEngine) (inputs : List Input) (key value : String) (request : ChatRequest)
      (correlationId : String),
      resolveLocal W.tables (trim request.message.toList) =
        some (some (.rememberPreference key value)) →
      preferenceByKey (after W registry policy inputs).data.database.memory key = none →
      ∀ (response : ProtocolResponse) (s₁ : ServiceState),
      chat W request correlationId (after W registry policy inputs) = (.ok response, s₁) →
      ∀ (forget : ChatRequest), forget.message = "forget " ++ key →
      ∀ (forgetId : String) (response' : ProtocolResponse) (s₂ : ServiceState),
      chat W forget forgetId s₁ = (.ok response', s₂) →
      preferenceByKey s₂.data.database.memory key = none := by
  intro h
  have hparsed : resolveLocal aliasWorld.tables (trim (rememberTelegram "TG").message.toList) =
      some (some (.rememberPreference "TG" "Telegram")) := by decide +kernel
  have hrun : preferenceByKey (after aliasWorld .launching .new []).data.database.memory "TG" =
        none ∧
      succeeds (telegramRemembered "TG").1 = true ∧
        succeeds (telegramForgotten "TG").1 = true ∧
          (preferenceByKey (telegramForgotten "TG").2.data.database.memory "TG").isSome = true := by
    decide +kernel
  obtain ⟨hnone, hremember, hforget, hkept⟩ := hrun
  obtain ⟨response, hremembered⟩ := exists_of_succeeds hremember
  obtain ⟨response', hforgotten⟩ := exists_of_succeeds hforget
  have hgone := h aliasWorld readsWords_ascii .launching .new [] "TG" "Telegram"
    (rememberTelegram "TG") "request:1" hparsed hnone response _ hremembered (forgetKey "TG") rfl
    "request:2" response' _ hforgotten
  rw [hgone] at hkept
  cases hkept

end Halquen.Service.Aliases
