import Halquen.Service.Handler

/-!
# The walk through the handlers

Much of what is shown of the service is a relation between the states before and after a request,
with composition: what a request may do to the ledger, to the grants, to the memory, to the agent
sessions. All handlers are made of the same few actions, and here each is walked once, for any such
relation `R`. What is to be shown of `R` is collected in structures: `Basics` of what all handlers
do, `Attendance` of agent sessions, `Writing` of the memory, `Starting` of the start of the daemon,
and `Requests` of the requests themselves, of which `Pipeline` leaves only storage methods
(`requests_of_pipeline`). The result is `keeps_handle`.
-/

set_option autoImplicit false

namespace Halquen.Service.Walk

open Halquen.Domain.Ids Halquen.Domain.Capability Halquen.Domain.Security Halquen.Domain.Agent
open Halquen.Domain.Interaction Halquen.Policy.Engine Halquen.Capabilities.Executor
open Halquen.Audit.Receipt Halquen.Memory.Semantic Halquen.Protocol.Messages
open Halquen.Library.Action Halquen.Library.Action.Act
open Halquen.Service.State Halquen.Service.Context Halquen.Service.Proposals
open Halquen.Service.Confirmations
open Halquen.Service.MemoryService Halquen.Service.Chat Halquen.Service.ChatParser
open Halquen.Service.SecurityService Halquen.Service.Agents Halquen.Service.Handler
open Halquen.Storage.Audit Halquen.Storage.Sqlite
open Halquen.Storage.Grants (StorageError claimPermissionForProposal)
open Halquen.Storage.Memory (setMemoryState)

/-! ## What is to be shown -/

/-- A storage method that leaves the sessions with their grants, the memory and the audit tables
alone. -/
structure Elsewhere (d d' : Database) : Prop where
  sessions : d'.sessions = d.sessions
  memory : d'.memory = d.memory
  audit : d'.audit = d.audit

instance : IsPreorder Database Elsewhere where
  refl _ := ⟨rfl, rfl, rfl⟩
  trans _ _ _ h h' :=
    ⟨h'.sessions.trans h.sessions, h'.memory.trans h.memory, h'.audit.trans h.audit⟩

/-- The agent session that an event is about. -/
def sessionOf : AuditEvent → Option AgentSessionId
  | .agentSessionStarted sessionId _ | .agentSessionFinished sessionId _ => some sessionId
  | _ => none

/-- Events that are not about agent sessions. -/
def Plain (events : List AuditEvent) : Prop := ∀ event ∈ events, sessionOf event = none

/-- A storage method that adds this record to the audit trail. -/
def appends (W : World) (record : AuditRecord) : Operation Unit :=
  query W .appendAudit (onAudit (appendAudit record))

section

variable (W : World) (asked : Option PermissionId) (generated : AgentSessionId → Prop)
  (R : ServiceState → ServiceState → Prop)

/-- What every handler does. -/
structure Basics : Prop where
  quiet : ∀ s s', Quiet s s' → R s s'
  elsewhere : ∀ {α : Type} {method : DbMethod} {action : Act Database StorageError α},
    Keeps Elsewhere action → Keeps R (call W method action)
  /-- The response cache and the AI gateway have the interaction tables. -/
  responded : ∀ s t, R s { s.next with data := s.data.withInteraction t }

/-- What is done for an agent session. -/
structure Attendance : Prop where
  quiet : ∀ s s', Quiet s s' → R s s'
  generates : ∀ stamp, generated (.generate .agentSession stamp)
  begun : ∀ session, Keeps R (query W .beginAgentSession
    (onSessions (Storage.Sessions.beginAgentSession session)))
  finished : ∀ id status endedAtMs, Keeps R (query W .finishAgentSession
    (onSessions (Storage.Sessions.finishAgentSession id status endedAtMs)))
  noted : ∀ record id, generated id → sessionOf record.event = some id →
    Keeps R (appends W record)

/-- What is done to the memory. -/
structure Writing : Prop where
  stated : ∀ id pinned disabled priority, Keeps R (query W .setMemoryState
    (onMemory (setMemoryState id pinned disabled priority)))
  /-- A first revision comes with a new item. -/
  persisted : ∀ item revision evidence,
    (revision.previousRevisionId = none → ∃ stamp, item.id = .generate .memory stamp) →
      Keeps R (persist W item revision evidence)

/-- What the daemon does at its start and at its end. -/
structure Starting : Prop where
  quiet : ∀ s s', Quiet s s' → R s s'
  begun : ∀ session, Keeps R (query W .beginDaemonSession
    (onSessions (Storage.Sessions.beginDaemonSession session)))
  finished : ∀ id endedAtMs, Keeps R (query W .finishDaemonSession
    (onSessions (Storage.Sessions.finishDaemonSession id endedAtMs)))
  started : ∀ s registry policy id,
    R s { s with data := ServiceData.started s.data registry policy id }

/-- A grant is stored under the identifier that was just generated, or under the one that the
request asks for. -/
def Saves : Prop :=
  ∀ s grant, asked = some grant.id ∨ grant.id = .generate .permission (W.stamp s.consulted) →
    Post (query W .upsertPermissionGrant (saveGrant W.serde grant)) s.next fun _ s' => R s s'

/-- What the requests do, the memory and the agent sessions apart. -/
structure Requests : Prop extends Basics W R where
  saved : Saves W asked R
  revoked : ∀ id nowMs, Keeps R (query W .revokePermission (onGrants fun rows =>
    (.ok (Storage.Grants.revokePermission rows id nowMs).1,
      (Storage.Grants.revokePermission rows id nowMs).2)))
  evaluated : ∀ record id decision, record.event = .policyEvaluated none id decision →
    Keeps R (appends W record)
  processed : ∀ proposal sessionId simulate,
    Keeps R (processProposal W proposal sessionId simulate)
  confirmed : ∀ confirmationId allow persistence expiresAtMs,
    Keeps R (confirmAction W confirmationId allow persistence expiresAtMs)
  opened : ∀ app displayName session correlationId,
    Keeps R (executeOpen W app displayName session correlationId)

/-- What the pipeline of the proposals and the confirmations do. -/
structure Pipeline : Prop where
  /-- The database is as it was, and the history may have grown. -/
  unsaved : ∀ s s' : ServiceState, s.consulted ≤ s'.consulted →
    s'.data.database = s.data.database → s.data.history <+: s'.data.history → R s s'
  elsewhere : ∀ {α : Type} {method : DbMethod} {action : Act Database StorageError α},
    Keeps Elsewhere action → Keeps R (call W method action)
  responded : ∀ s t, R s { s.next with data := s.data.withInteraction t }
  saved : Saves W asked R
  revoked : ∀ id nowMs, Keeps R (query W .revokePermission (onGrants fun rows =>
    (.ok (Storage.Grants.revokePermission rows id nowMs).1,
      (Storage.Grants.revokePermission rows id nowMs).2)))
  claimed : ∀ proposal sessionId nowMs, Keeps R (query W .claimPermissionForProposal
    (onGrants fun rows => claimPermissionForProposal W.serde rows proposal
      (permissionSession proposal sessionId) (permissionAgent proposal) nowMs))
  appended : ∀ record, sessionOf record.event = none → Keeps R (appends W record)
  recorded : ∀ receipt records, Plain (records.map AuditRecord.event) →
    Keeps R (query W .recordExecution (onAudit (recordExecution receipt records)))

end

/-! ## Storage methods -/

section

variable {W : World} {R : ServiceState → ServiceState → Prop} {α : Type}

/-- The methods that every handler may call are those on conversations, labels, agents and the
profile. -/
theorem keeps_elsewhere_onInteraction
    (m : Act Storage.Interaction.InteractionTables StorageError α) :
    Keeps Elsewhere (onInteraction m) := fun _ => ⟨rfl, rfl, rfl⟩

theorem keeps_elsewhere_updateSecurityProfile (profile : SecurityProfile) (nowMs : Int) :
    Keeps Elsewhere (Storage.Sqlite.updateSecurityProfile profile nowMs) :=
  fun _ => ⟨rfl, rfl, rfl⟩

theorem keeps_elsewhere_saveLabel (label : ResourceLabel) : Keeps Elsewhere (saveLabel label) :=
  (keeps_gets _).bind fun _ => (keeps_ofExcept _).bind fun _ =>
    keeps_modify fun _ => ⟨rfl, rfl, rfl⟩

theorem keeps_elsewhere_deleteLabel (id : ResourceLabelId) : Keeps Elsewhere (deleteLabel id) :=
  (keeps_gets _).bind fun _ => Keeps.bind (keeps_modify fun _ => ⟨rfl, rfl, rfl⟩) fun _ =>
    keeps_pure _

theorem keeps_elsewhere_saveAgent (codec : Storage.Agents.ArgumentsCodec)
    (agent : AgentConfiguration) : Keeps Elsewhere (saveAgent codec agent) :=
  (keeps_gets _).bind fun _ => (keeps_ofExcept _).bind fun _ =>
    keeps_modify fun _ => ⟨rfl, rfl, rfl⟩

theorem keeps_elsewhere_deleteAgent (id : AgentId) : Keeps Elsewhere (deleteAgent id) :=
  (keeps_gets _).bind fun _ => Keeps.bind (keeps_modify fun _ => ⟨rfl, rfl, rfl⟩) fun _ =>
    keeps_pure _

/-- A relation that allows what a storage method does to the database, and the note of its refusal,
allows the call of the method. -/
theorem keeps_call_of {P : Database → Database → Prop} [IsPreorder Database P]
    (hcalled : ∀ s method database effects, P s.data.database database →
      (∀ e ∈ effects, Idle e) → R s (s.called method database effects))
    {method : DbMethod} {action : Act Database StorageError α} (h : Keeps P action) :
    Keeps R (call W method action) := by
  have hidle : ∀ refused : Bool, ∀ e ∈ (if refused then [Effect.refused method] else []),
      Idle e := by
    rintro (_ | _) e he
    · cases he
    · obtain rfl := List.mem_singleton.mp he
      trivial
  intro s
  change Post (call W method action) s fun _ s' => R s s'
  rw [post_call]
  constructor
  · intro _
    exact hcalled s method _ _ (refl_of P _) (hidle _)
  · intro _
    exact (h.post s.data.database).mono fun _ d hd => hcalled s method d _ hd (hidle _)

end

/-! ## What all handlers do -/

section

variable {W : World} {R : ServiceState → ServiceState → Prop} {α : Type} (h : Basics W R)

include h

/-- A question to the world is quiet. -/
theorem keeps_consult (f : Nat → α) : Keeps R (consult f) := (keeps_quiet_consult f).mono h.quiet

theorem keeps_now : Keeps R (now W) := keeps_consult h _

theorem keeps_generate (kind : GeneratedKind) : Keeps R (generate W kind) := keeps_consult h _

/-- So is a reading. -/
theorem keeps_read {method : DbMethod} (hmethod : method.isWrite = false)
    (f : Database → Except StorageError α) : Keeps R (State.read W method f) :=
  (keeps_quiet_read hmethod f).mono h.quiet

/-- A method elsewhere keeps the relation, whatever error it ends with. -/
theorem keeps_query {method : DbMethod} {action : Act Database StorageError α}
    (haction : Keeps Elsewhere action) : Keeps R (query W method action) :=
  (h.elsewhere haction).mapError _

theorem keeps_countUsage (delta : UsageStats) : Keeps R (countUsage W delta) :=
  keeps_query h (keeps_elsewhere_onInteraction _)

theorem keeps_trustedUserProposal (action : ActionRequest) :
    Keeps R (trustedUserProposal W action) :=
  (keeps_quiet_trustedUserProposal action).mono h.quiet

variable [IsPreorder ServiceState R]

/-- The handlers are walked in the order in which they call each other. None of them does more than
its parts. -/
theorem keeps_recordUse (app : EntityId) : Keeps R (recordUse W app) :=
  (keeps_generate h _).bind fun _ => (keeps_now h).bind fun _ =>
    keeps_query h (keeps_elsewhere_onInteraction _)

theorem keeps_activity (sessionId : Option ChatSessionId) (correlationId : String)
    (kind : ActivityKind) (summary : String) (detail : Option String) :
    Keeps R (activity W sessionId correlationId kind summary detail) :=
  (keeps_generate h _).bind fun _ => (keeps_now h).bind fun _ =>
    keeps_query h (keeps_elsewhere_onInteraction _)

/-- An answer is stored with the conversations. -/
theorem keeps_answer (session : ChatSession) (userMessage : ChatMessage) (content : String)
    (route : ChatRoute) (confirmation : Option ConfirmationPrompt) :
    Keeps R (answer W session userMessage content route confirmation) := by
  refine Keeps.bind ?_ fun message => Keeps.bind ?_ fun _ => keeps_pure _
  · exact (keeps_generate h _).bind fun _ => (keeps_consult h _).bind fun _ =>
      (keeps_now h).bind fun _ => keeps_pure _
  · exact keeps_query h (keeps_elsewhere_onInteraction _)

theorem keeps_recordCorrected (entityId : EntityId) (outcome : BehaviourOutcome)
    (timestamp : Int) : Keeps R (recordCorrected W entityId outcome timestamp) :=
  (keeps_generate h _).bind fun _ => keeps_query h (keeps_elsewhere_onInteraction _)

omit h in
/-- A name is looked up without the state. -/
theorem keeps_correctedEntity (name : String) : Keeps R (correctedEntity W name) :=
  keeps_orThrow _ _

theorem keeps_updateSecurityProfile (profile : SecurityProfile) :
    Keeps R (SecurityService.updateSecurityProfile W profile) :=
  (keeps_now h).bind fun _ =>
    (keeps_query h (keeps_elsewhere_updateSecurityProfile _ _)).bind fun _ => keeps_pure _

theorem keeps_requireAgent (agentId : Option AgentId) : Keeps R (requireAgent W agentId) := by
  cases agentId with
  | some agentId => exact (keeps_read h rfl _).bind fun _ => keeps_require _ _
  | none => exact keeps_pure _

theorem keeps_requireSession (agentId : Option AgentId) (session : PermissionSessionScope) :
    Keeps R (requireSession W agentId session) := by
  cases session with
  | agent sessionId =>
      exact (keeps_orThrow _ _).bind fun _ => (keeps_read h rfl _).bind fun _ =>
        keeps_require _ _
  | daemon id => exact (keeps_gets _).bind fun _ => keeps_require _ _
  | chat sessionId => exact keeps_pure _

/-- The limits of a grant are checked by readings. -/
theorem keeps_grantLimits (input : PermissionGrantUpsert) : Keeps R (grantLimits W input) := by
  unfold grantLimits
  cases input.lifetime with
  | once => exact keeps_pure _
  | session =>
      exact (keeps_orThrow _ _).bind fun _ => (keeps_requireSession h _ _).bind fun _ =>
        keeps_pure _
  | «until» => exact (keeps_orThrow _ _).bind fun _ => keeps_pure _
  | always => exact keeps_pure _

theorem keeps_upsertResourceLabel (input : ResourceLabelUpsert) :
    Keeps R (SecurityService.upsertResourceLabel W input) :=
  (keeps_now h).bind fun _ => (keeps_generate h _).bind fun _ =>
    ((h.elsewhere (keeps_elsewhere_saveLabel _)).mapError _).bind fun _ => keeps_pure _

theorem keeps_removeResourceLabel (id : ResourceLabelId) :
    Keeps R (SecurityService.removeResourceLabel W id) :=
  (keeps_query h (keeps_elsewhere_deleteLabel _)).bind fun _ => keeps_pure _

theorem keeps_inspectAgent (input : AgentConfigurationUpsert) :
    Keeps R (inspectAgent W input) :=
  Keeps.ite (fun _ => (keeps_consult h _).bind fun _ => (keeps_orThrow _ _).bind fun _ =>
    keeps_pure _) fun _ => keeps_pure _

theorem keeps_upsertAgent (input : AgentConfigurationUpsert) :
    Keeps R (SecurityService.upsertAgent W input) :=
  (keeps_inspectAgent h input).bind fun _ => (keeps_now h).bind fun _ =>
    (keeps_generate h _).bind fun _ =>
      ((h.elsewhere (keeps_elsewhere_saveAgent _ _)).mapError _).bind fun _ => keeps_pure _

theorem keeps_removeAgent (id : AgentId) : Keeps R (SecurityService.removeAgent W id) :=
  (keeps_query h (keeps_elsewhere_deleteAgent _)).bind fun _ => keeps_pure _

end

/-! ## Agent sessions -/

section

variable {W : World} {generated : AgentSessionId → Prop}
  {R : ServiceState → ServiceState → Prop} {α ε : Type} (h : Attendance W generated R)
  {session : AgentSession} (hsession : generated session.id)

include h

theorem keeps_attended_consult (f : Nat → α) : Keeps R (consult f) :=
  (keeps_quiet_consult f).mono h.quiet

variable [IsPreorder ServiceState R]

include hsession

/-- The end of a session is stored and noted for it. -/
theorem keeps_finishAgentSession (status : AgentSessionStatus) :
    Keeps R (Agents.finishAgentSession W session status) := by
  refine (keeps_attended_consult h _).bind fun nowMs => (h.finished _ _ _).bind fun _ => ?_
  refine (keeps_attended_consult h _).bind fun id => Keeps.bind ?_ fun _ => keeps_pure _
  exact h.noted _ session.id hsession rfl

/-- A run that is given up ends its session first. -/
theorem keeps_abort (status : AgentSessionStatus) (error : Failure) :
    Keeps R (abort W session status error : Operation α) :=
  (keeps_finishAgentSession h hsession status).bind fun _ => keeps_throw _

theorem keeps_orAbort (status : ε → AgentSessionStatus) (error : ε → Failure) (r : Except ε α) :
    Keeps R (orAbort W session status error r) := by
  cases r with
  | ok a => exact keeps_pure a
  | error e => exact keeps_abort h hsession _ _

/-- The start of a session is stored and noted, or the session ends again. -/
theorem keeps_beginAgentSession (identity : AgentExecutionIdentity) :
    Keeps R (Agents.beginAgentSession W session identity) := by
  refine (h.begun session).bind fun _ => (keeps_attended_consult h _).bind fun id => ?_
  refine Keeps.bind (Keeps.attempt (h.noted _ session.id hsession rfl)) fun recorded => ?_
  cases recorded with
  | ok _ => exact keeps_pure _
  | error _ =>
      exact (keeps_finishAgentSession h hsession _).attempt.bind fun _ => keeps_throw _

/-- A label is looked up, or the session ends. -/
theorem keeps_classifyProposal (proposal : ActionProposal) :
    Keeps R (classifyProposal W session proposal) := by
  unfold classifyProposal
  cases proposal.action.arguments with
  | none => exact keeps_pure _
  | openApp app =>
      have hlooked : Keeps R (applicationClassification W app) :=
        (keeps_quiet_applicationClassification app).mono h.quiet
      refine hlooked.attempt.bind fun looked => ?_
      refine (keeps_orAbort h hsession _ _ looked).bind fun classification => ?_
      exact Keeps.ite (fun _ => keeps_pure _) fun _ => keeps_abort h hsession _ _

/-- The process of the agent is outside the service. -/
theorem keeps_invokeAgent (configuration : AgentConfiguration)
    (identity : AgentExecutionIdentity) (input : String) :
    Keeps R (invokeAgent W configuration identity session input) := by
  refine (keeps_gets _).bind fun registry => (keeps_attended_consult h _).bind fun started => ?_
  refine (keeps_orAbort h hsession _ _ started).bind fun _ => ?_
  exact (keeps_attended_consult h _).bind fun _ => keeps_orAbort h hsession _ _ _

/-- By induction on the proposals. -/
theorem keeps_handleProposals
    (hprocessed : ∀ proposal sessionId simulate,
      Keeps R (processProposal W proposal sessionId simulate))
    (index : Nat) (proposals : List ActionProposal) :
    Keeps R (handleProposals W session index proposals) := by
  induction proposals generalizing index with
  | nil => exact keeps_pure _
  | cons proposal proposals ih =>
      refine Keeps.bind ?_ fun _ => (ih (index + 1)).bind fun _ => keeps_pure _
      refine Keeps.ite (fun _ => keeps_abort h hsession _ _) fun _ => ?_
      refine (keeps_classifyProposal h hsession proposal).bind fun ready => ?_
      exact (hprocessed ready none false).attempt.bind fun _ => keeps_pure _

omit hsession in
/-- A run is its session and its proposals. -/
theorem keeps_runAgent
    (hprocessed : ∀ proposal sessionId simulate,
      Keeps R (processProposal W proposal sessionId simulate))
    (request : AgentRunRequest) : Keeps R (runAgent W request) := by
  have hconfigured : Keeps R (configuredAgent W request.agentId) :=
    Keeps.mono ((keeps_quiet_read rfl _).bind fun _ => keeps_orThrow _ _) h.quiet
  have hid : ∀ s, Returns (generate W .agentSession) s fun id _ => generated id := by
    intro s
    rw [returns_generate]
    exact h.generates _
  refine (keeps_require _ _).bind fun _ => hconfigured.bind fun configuration => ?_
  refine (keeps_attended_consult h _).bind fun startedAtMs => ?_
  refine (keeps_attended_consult h _).bind fun instanceId => ?_
  refine Keeps.bind_of (keeps_attended_consult h _) hid fun sessionId hsessionId => ?_
  refine (keeps_gets _).bind fun daemonSessionId => ?_
  have hsession : generated (startingSession ⟨configuration.id, instanceId, sessionId⟩
      daemonSessionId startedAtMs).id := hsessionId
  refine (keeps_beginAgentSession h hsession _).bind fun _ => ?_
  refine (keeps_invokeAgent h hsession _ _ _).bind fun invocation => ?_
  refine (keeps_handleProposals h hsession hprocessed 0 _).bind fun results => ?_
  refine (keeps_attended_consult h _).bind fun completion => ?_
  refine (keeps_orAbort h hsession _ _ completion).bind fun _ => ?_
  exact (keeps_finishAgentSession h hsession _).bind fun _ => keeps_pure _

end

/-! ## Memory -/

section

variable {W : World} {R : ServiceState → ServiceState → Prop} [IsPreorder ServiceState R]
  (h : Basics W R) (hwriting : Writing W R)

/-- A preference without a stored item gets a new one. -/
theorem returns_preferenceRevision (existing : Option (MemoryItem × MemoryRevision))
    (value : MemoryValue) (evidenceId : EvidenceId) (timestamp : Int) (s : ServiceState) :
    Returns (preferenceRevision W existing value evidenceId timestamp) s fun change _ =>
      change.2.previousRevisionId = none → ∃ stamp, change.1.id = .generate .memory stamp := by
  cases existing with
  | some stored =>
      simp only [preferenceRevision, returns_bind, returns_generate, returns_pure]
      intro hnone
      cases hnone
  | none =>
      simp only [preferenceRevision, returns_bind, returns_generate, returns_pure]
      exact fun _ => ⟨_, rfl⟩

include h

/-- A new revision is built and not yet stored. -/
theorem keeps_preferenceRevision (existing : Option (MemoryItem × MemoryRevision))
    (value : MemoryValue) (evidenceId : EvidenceId) (timestamp : Int) :
    Keeps R (preferenceRevision W existing value evidenceId timestamp) := by
  cases existing with
  | some stored => exact (keeps_generate h _).bind fun _ => keeps_pure _
  | none =>
      exact (keeps_generate h _).bind fun _ => (keeps_generate h _).bind fun _ => keeps_pure _

include hwriting

/-- A preference is stored as one revision. -/
theorem keeps_commitPreference (key value sourceReference : String) :
    Keeps R (commitPreference W key value sourceReference) := by
  refine (keeps_now h).bind fun timestamp => (keeps_generate h _).bind fun evidenceId => ?_
  refine (keeps_read h rfl _).bind fun existing => ?_
  refine Keeps.bind_of (keeps_preferenceRevision h existing _ evidenceId timestamp)
    (returns_preferenceRevision existing _ evidenceId timestamp) fun change hchange => ?_
  exact (hwriting.persisted _ _ _ hchange).bind fun _ => keeps_pure _

omit h in
theorem keeps_updateMemoryState (update : MemoryStateUpdate) :
    Keeps R (updateMemoryState W update) :=
  (hwriting.stated _ _ _ _).bind fun _ => keeps_pure _

/-- So is an old revision that is restored. -/
theorem keeps_restoreMemoryRevision (memoryId : MemoryId) (revisionId : MemoryRevisionId) :
    Keeps R (restoreMemoryRevision W memoryId revisionId) := by
  refine (keeps_read h rfl _).bind fun _ => (keeps_orThrow _ _).bind fun stored => ?_
  refine (keeps_read h rfl _).bind fun _ => (keeps_orThrow _ _).bind fun source => ?_
  refine (keeps_now h).bind fun timestamp => (keeps_generate h _).bind fun evidenceId => ?_
  refine (keeps_generate h _).bind fun id => Keeps.bind ?_ fun _ => keeps_pure _
  refine hwriting.persisted _ _ _ fun hnone => ?_
  exact absurd hnone (Option.some_ne_none _)

theorem keeps_rememberPreference (key value : String) (session : ChatSession)
    (userMessage : ChatMessage) (correlationId : String) :
    Keeps R (rememberPreference W key value session userMessage correlationId) := by
  refine (keeps_commitPreference h hwriting _ _ _).bind fun _ => ?_
  refine (keeps_countUsage h _).bind fun _ => (keeps_activity h _ _ _ _ _).bind fun _ => ?_
  exact keeps_answer h _ _ _ _ _

theorem keeps_forgetPreference (key : String) (session : ChatSession) (userMessage : ChatMessage)
    (correlationId : String) :
    Keeps R (forgetPreference W key session userMessage correlationId) := by
  refine (keeps_read h rfl _).bind fun existing => Keeps.bind ?_ fun content =>
    (keeps_countUsage h _).bind fun _ => keeps_answer h _ _ _ _ _
  cases existing with
  | some stored =>
      exact (hwriting.stated _ _ _ _).bind fun _ =>
        (keeps_activity h _ _ _ _ _).bind fun _ => keeps_pure _
  | none => exact keeps_pure _

end

/-! ## Starts -/

section

variable {W : World} {R : ServiceState → ServiceState → Prop} [IsPreorder ServiceState R]
  (h : Starting W R)

include h

/-- The start of a daemon stores its session. -/
theorem keeps_fromParts (registry : CapabilityRegistry) (policy : PolicyEngine) :
    Keeps R (fromParts W registry policy) :=
  ((keeps_quiet_generate _).mono h.quiet).bind fun id =>
    (keeps_quiet_now.mono h.quiet).bind fun startedAtMs =>
      (h.begun ⟨id, startedAtMs, none⟩).attempt.bind fun _ =>
        keeps_modify fun s => h.started s registry policy id

/-- A restart is the end of one daemon, if it is regular, and the start of the next. -/
theorem keeps_restart (regular : Bool) (registry : CapabilityRegistry) (policy : PolicyEngine) :
    Keeps R (restart W regular registry policy) := by
  have hshutDown : Keeps R (shutDown W) :=
    (keeps_gets _).bind fun id => (keeps_quiet_now.mono h.quiet).bind fun nowMs =>
      (h.finished id nowMs).attempt.bind fun _ => keeps_pure _
  exact Keeps.ite (fun _ => hshutDown.bind fun _ => keeps_fromParts h registry policy)
    fun _ => keeps_fromParts h registry policy

end

/-! ## Requests -/

/-- The identifier under which a request asks for a grant to be stored. -/
def askedBy : ProtocolRequest → Option PermissionId
  | .upsertPermissionGrant input => input.id
  | _ => none

/-- Requests that may change the memory. -/
def WritesMemory : ProtocolRequest → Prop
  | .chat _ | .updateMemoryState _ | .restoreMemoryRevision .. => True
  | _ => False

/-- Requests that attend to an agent session. -/
def RunsAgent (request : ProtocolRequest) : Prop := ∃ run, request = .runAgent run

section

variable {W : World} {asked : Option PermissionId} {generated : AgentSessionId → Prop}
  {R : ServiceState → ServiceState → Prop} [IsPreorder ServiceState R] (h : Requests W asked R)

include h

/-- An evaluation notes its decision. -/
theorem keeps_evaluateAction (action : ActionRequest) : Keeps R (evaluateAction W action) := by
  refine ((keeps_quiet_descriptorFor action).mono h.quiet).bind fun descriptor => ?_
  refine (keeps_trustedUserProposal h.toBasics action).bind fun proposal => ?_
  refine ((keeps_quiet_policyContext proposal none).mono h.quiet).bind fun context => ?_
  refine (keeps_gets _).bind fun policy => (keeps_now h.toBasics).bind fun timestamp => ?_
  refine (keeps_generate h.toBasics _).bind fun id => Keeps.bind ?_ fun _ => keeps_pure _
  exact h.evaluated _ _ _ rfl

/-- An application is opened through a proposal. -/
theorem keeps_openApp (displayName : String) (entityId : EntityId) (session : ChatSession)
    (userMessage : ChatMessage) (correlationId : String) :
    Keeps R (openApp W displayName entityId session userMessage correlationId) := by
  refine (keeps_read h.toBasics rfl _).bind fun preferred => ?_
  refine (h.opened _ _ session correlationId).bind fun result => ?_
  refine (keeps_countUsage h.toBasics _).bind fun _ => ?_
  exact (keeps_activity h.toBasics _ _ _ _ _).bind fun _ => keeps_answer h.toBasics _ _ _ _ _

/-- So is one that recent use decides. -/
theorem keeps_contextualOpenApp (session : ChatSession) (userMessage : ChatMessage)
    (correlationId : String) :
    Keeps R (contextualOpenApp W session userMessage correlationId) := by
  refine (keeps_now h.toBasics).bind fun timestamp => ?_
  refine (keeps_read h.toBasics rfl _).bind fun events => ?_
  cases W.resolveBehaviour events timestamp with
  | resolved candidate => exact keeps_openApp h _ _ _ _ _
  | ambiguous candidates =>
      refine (keeps_countUsage h.toBasics _).bind fun _ => ?_
      exact (keeps_activity h.toBasics _ _ _ _ _).bind fun _ => keeps_answer h.toBasics _ _ _ _ _
  | unknown =>
      exact (keeps_countUsage h.toBasics _).bind fun _ => keeps_answer h.toBasics _ _ _ _ _

theorem keeps_correctOpenApp (rejected accepted : String) (session : ChatSession)
    (userMessage : ChatMessage) (correlationId : String) :
    Keeps R (correctOpenApp W rejected accepted session userMessage correlationId) := by
  refine (keeps_now h.toBasics).bind fun timestamp => ?_
  refine (keeps_correctedEntity rejected).bind fun rejectedEntity => ?_
  refine (keeps_correctedEntity accepted).bind fun acceptedEntity => ?_
  refine (keeps_recordCorrected h.toBasics _ _ _).bind fun _ => ?_
  refine (keeps_recordCorrected h.toBasics _ _ _).bind fun _ => ?_
  refine (keeps_generate h.toBasics _).bind fun id => ?_
  refine (keeps_query h.toBasics (keeps_elsewhere_onInteraction _)).bind fun _ => ?_
  exact keeps_openApp h _ _ _ _ _

/-- By cases on the intent. -/
theorem keeps_handleLocalIntent (hwriting : Writing W R) (session : ChatSession)
    (userMessage : ChatMessage) (correlationId : String) (intent : LocalIntent) :
    Keeps R (handleLocalIntent W session userMessage correlationId intent) := by
  cases intent with
  | openApp displayName entityId => exact keeps_openApp h _ _ _ _ _
  | rememberPreference key value =>
      exact keeps_rememberPreference h.toBasics hwriting _ _ _ _ _
  | forgetPreference key => exact keeps_forgetPreference h.toBasics hwriting _ _ _ _
  | contextualOpenApp => exact keeps_contextualOpenApp h _ _ _
  | correctOpenApp rejected accepted => exact keeps_correctOpenApp h _ _ _ _ _

/-- A chat is handled locally, or answered from the cache or by a model. -/
theorem keeps_chat (hwriting : Writing W R) (request : ChatRequest) (correlationId : String) :
    Keeps R (chat W request correlationId) := by
  refine (keeps_require _ _).bind fun _ => (keeps_now h.toBasics).bind fun timestamp => ?_
  refine (keeps_generate h.toBasics _).bind fun fresh => ?_
  refine (keeps_query h.toBasics (keeps_elsewhere_onInteraction _)).bind fun session => ?_
  refine (keeps_generate h.toBasics _).bind fun id => ?_
  refine (keeps_query h.toBasics (keeps_elsewhere_onInteraction _)).bind fun _ => ?_
  refine (keeps_activity h.toBasics _ _ _ _ _).bind fun _ => ?_
  refine (keeps_orThrow _ _).bind fun resolved => ?_
  cases resolved with
  | some intent => exact keeps_handleLocalIntent h hwriting _ _ _ _
  | none => exact fun s => h.responded s _

/-- The request upserts the grant that it asks for. -/
theorem keeps_upsertPermissionGrant (input : PermissionGrantUpsert) (hasked : asked = input.id) :
    Keeps R (SecurityService.upsertPermissionGrant W input) := by
  refine (keeps_gets _).bind fun registry => (keeps_orThrow _ _).bind fun descriptor => ?_
  refine (keeps_require _ _).bind fun _ => (keeps_requireAgent h.toBasics _).bind fun _ => ?_
  refine (keeps_now h.toBasics).bind fun nowMs => (keeps_require _ _).bind fun _ => ?_
  refine (keeps_grantLimits h.toBasics input).bind fun limits => ?_
  intro s
  change Post (_ >>= _) s fun _ s' => R s s'
  rw [post_bind, post_generate, next_ok]
  refine (h.saved s _ ?_).bind (fun _ _ h => h) fun _ _ h => h
  rw [hasked]
  cases input.id with
  | some id => exact .inl rfl
  | none => exact .inr rfl

theorem keeps_revokePermissionGrant (id : PermissionId) :
    Keeps R (revokePermissionGrant W id) :=
  (keeps_now h.toBasics).bind fun nowMs => (h.revoked id nowMs).bind fun _ => keeps_pure _

omit h in
/-- What is shown of the actions holds of every request. -/
theorem keeps_handle (envelope : RequestEnvelope) (h : Requests W (askedBy envelope.request) R)
    (hwriting : WritesMemory envelope.request → Writing W R)
    (hattendance : RunsAgent envelope.request → Attendance W generated R) :
    Keeps R (handle W envelope) := by
  obtain ⟨requestId, request⟩ := envelope
  have hprocessed : ∀ action simulate, Keeps R (do
      let proposal ← trustedUserProposal W action
      processProposal W proposal none simulate) := fun action simulate =>
    (keeps_trustedUserProposal h.toBasics action).bind fun _ => h.processed _ _ _
  unfold handle
  cases request with
  | evaluateAction action => exact keeps_evaluateAction h action
  | dryRunAction action => exact hprocessed action true
  | executeAction action => exact hprocessed action false
  | chat request => exact keeps_chat h (hwriting trivial) request requestId
  | updateMemoryState update => exact keeps_updateMemoryState (hwriting trivial) update
  | restoreMemoryRevision memoryId revisionId =>
      exact keeps_restoreMemoryRevision h.toBasics (hwriting trivial) memoryId revisionId
  | confirmAction confirmationId allow persistence expiresAtMs => exact h.confirmed _ _ _ _
  | updateSecurityProfile profile => exact keeps_updateSecurityProfile h.toBasics profile
  | upsertPermissionGrant input => exact keeps_upsertPermissionGrant h input rfl
  | revokePermissionGrant permissionId => exact keeps_revokePermissionGrant h permissionId
  | upsertResourceLabel label => exact keeps_upsertResourceLabel h.toBasics label
  | removeResourceLabel id => exact keeps_removeResourceLabel h.toBasics id
  | upsertAgent agent => exact keeps_upsertAgent h.toBasics agent
  | removeAgent agentId => exact keeps_removeAgent h.toBasics agentId
  | runAgent request => exact keeps_runAgent (hattendance ⟨request, rfl⟩) h.processed request

end

/-! ## The pipeline -/

/-- Two lists of plain events are one. -/
theorem Plain.append {events events' : List AuditEvent} (h : Plain events) (h' : Plain events') :
    Plain (events ++ events') := by
  intro event hevent
  rcases List.mem_append.mp hevent with hmem | hmem
  · exact h event hmem
  · exact h' event hmem

/-- No event of an execution is about an agent session. -/
theorem plain_requestedEvents (p : Prepared) : Plain p.requestedEvents := by
  simp [Plain, Prepared.requestedEvents, sessionOf]

theorem plain_authorizedEvents (p : Prepared) : Plain p.authorizedEvents := by
  simp [Plain, Prepared.authorizedEvents, sessionOf]

theorem plain_blockedEvent (p : Prepared) : Plain [p.blockedEvent] := by
  unfold Plain Prepared.blockedEvent
  cases p.evaluation.decision.outcome <;> simp [sessionOf]

theorem plain_terminalEvent (p : Prepared) (reply : ExecutorReply) :
    Plain [p.terminalEvent reply] := by
  cases reply <;> simp [Plain, Prepared.terminalEvent, sessionOf]

theorem plain_confirmedEvents (p : Prepared) : Plain (confirmedEvents p) := by
  simp [Plain, confirmedEvents, Prepared.requestedEvents, Prepared.acceptedEvent,
    Prepared.authorizedEvents, sessionOf]

section

variable {W : World}

/-- The records are of these events. -/
theorem returns_auditRecords (createdAtMs : Int) (events : List AuditEvent) (s : ServiceState) :
    Returns (auditRecords W createdAtMs events) s fun records _ =>
      records.map AuditRecord.event = events := by
  refine post_auditRecords fun records hwritten records' hrecords => ?_
  cases hrecords
  exact hwritten.events

theorem returns_recordNow (event : AuditEvent) (s : ServiceState) :
    Returns (recordNow W event) s fun record _ => record.event = event := by
  simp only [recordNow, returns_bind, returns_generate, returns_now, returns_pure]

end

section

variable {W : World} {asked : Option PermissionId} {R : ServiceState → ServiceState → Prop}

/-- What the pipeline allows includes what all handlers do. -/
theorem basics_of_pipeline (h : Pipeline W asked R) : Basics W R where
  quiet s s' hquiet := h.unsaved s s' hquiet.consulted (by rw [hquiet.data]) (by rw [hquiet.data])
  elsewhere haction := h.elsewhere haction
  responded := h.responded

variable (h : Pipeline W asked R)

include h

theorem keeps_record (effects : List Effect) : Keeps R (record effects) :=
  fun s => h.unsaved s _ (Nat.le_refl _) rfl (List.prefix_append _ _)

variable [IsPreorder ServiceState R]

/-- Records are made by questions to the world, by induction on the events. -/
theorem keeps_auditRecords (createdAtMs : Int) (events : List AuditEvent) :
    Keeps R (auditRecords W createdAtMs events) := by
  have hbasics := basics_of_pipeline h
  induction events with
  | nil => exact keeps_pure _
  | cons event events ih =>
      exact (keeps_generate hbasics _).bind fun _ => ih.bind fun _ => keeps_pure _

theorem keeps_recordNow (event : AuditEvent) : Keeps R (recordNow W event) :=
  (keeps_generate (basics_of_pipeline h) _).bind fun _ =>
    (keeps_now (basics_of_pipeline h)).bind fun _ => keeps_pure _

/-- The executor is outside the service. -/
theorem keeps_execute (executor : ExecutorKind) (authorization : ExecutionAuthorization) :
    Keeps R (execute W executor authorization) := by
  refine Keeps.bind ?_ fun _ => (keeps_record h _).bind fun _ => keeps_pure _
  cases executor with
  | configured => exact keeps_consult (basics_of_pipeline h) _
  | dryRun => exact keeps_pure _

/-- The record of an execution has plain events only. -/
theorem keeps_finishExecution (p : Prepared) {records : List AuditRecord}
    (hplain : Plain (records.map AuditRecord.event)) (settled : Settlement) :
    Keeps R (finishExecution W p records settled) :=
  (keeps_now (basics_of_pipeline h)).bind fun _ =>
    (h.recorded _ _ hplain).bind fun _ => keeps_pure _

/-- A claim is a method on the grants. -/
theorem keeps_claimDeciding (p : Prepared) (sessionId : Option ChatSessionId) :
    Keeps R (claimDeciding W p sessionId) := by
  apply Keeps.ite
  · intro _
    refine Keeps.bind ?_ fun _ => keeps_require _ _
    refine (keeps_gets _).bind fun _ => (h.claimed _ _ _).bind fun _ => ?_
    exact (keeps_record h _).bind fun _ => keeps_pure _
  · intro _
    exact keeps_pure _

/-- The pipeline performs a claim, two notes, an execution and its record. -/
theorem keeps_perform (p : Prepared) (sessionId : Option ChatSessionId) (simulate : Bool) :
    Keeps R (perform W p sessionId simulate) := by
  refine Keeps.bind_of (keeps_auditRecords h _ _) (returns_auditRecords _ _)
    fun requested hrequested => ?_
  cases p.evaluation.authorization with
  | some authorization =>
      refine (keeps_claimDeciding h p sessionId).bind fun _ => ?_
      refine Keeps.bind_of (keeps_auditRecords h _ _) (returns_auditRecords _ _)
        fun authorized hauthorized => ?_
      refine (keeps_execute h _ authorization).bind fun reply => ?_
      refine Keeps.bind_of (keeps_recordNow h _) (returns_recordNow _) fun terminal hterminal => ?_
      apply keeps_finishExecution h
      rw [List.map_append, List.map_append, hrequested, hauthorized, List.map_singleton, hterminal]
      exact ((plain_requestedEvents p).append (plain_authorizedEvents p)).append
        (plain_terminalEvent p reply)
  | none =>
      refine Keeps.bind_of (keeps_recordNow h _) (returns_recordNow _) fun blocked hblocked => ?_
      apply keeps_finishExecution h
      rw [List.map_append, hrequested, List.map_singleton, hblocked]
      exact (plain_requestedEvents p).append (plain_blockedEvent p)

theorem keeps_processProposal (proposal : ActionProposal) (sessionId : Option ChatSessionId)
    (simulate : Bool) : Keeps R (processProposal W proposal sessionId simulate) :=
  ((keeps_quiet_prepare _ _ _).mono (basics_of_pipeline h).quiet).bind fun _ =>
    (keeps_perform h _ _ _).bind fun _ => keeps_pure _

theorem keeps_recordOpened (arguments : ActionArguments) (reply : ExecutorReply) :
    Keeps R (recordOpened W arguments reply) := by
  unfold recordOpened
  cases openedApp arguments reply with
  | some app => exact keeps_recordUse (basics_of_pipeline h) app
  | none => exact keeps_pure _

theorem keeps_performConfirmed (p : Prepared) (authorization : ExecutionAuthorization) :
    Keeps R (performConfirmed W p authorization) := by
  refine Keeps.bind_of (keeps_auditRecords h _ _) (returns_auditRecords _ _)
    fun records hrecords => ?_
  refine (keeps_execute h _ authorization).bind fun reply => ?_
  refine Keeps.bind_of (keeps_recordNow h _) (returns_recordNow _) fun terminal hterminal => ?_
  refine (keeps_recordOpened h _ reply).bind fun _ => ?_
  apply keeps_finishExecution h
  rw [List.map_append, hrecords, List.map_singleton, hterminal]
  exact (plain_confirmedEvents p).append (plain_terminalEvent p reply)

/-- The grant of a confirmation is new. -/
theorem keeps_rememberConfirmation (pending : PendingConfirmation) (startedAtMs : Int)
    (persistence : ConfirmationPersistence) (expiresAtMs : Option Int) :
    Keeps R (rememberConfirmation W pending startedAtMs persistence expiresAtMs) := by
  refine Keeps.ite (fun _ => keeps_pure _) fun _ => (keeps_ofExcept _).bind fun terms => ?_
  intro s
  change Post (_ >>= _) s fun _ s' => R s s'
  rw [post_bind, post_generate, next_ok]
  exact h.saved s _ (.inr rfl)

theorem keeps_allowConfirmation (pending : PendingConfirmation)
    (persistence : ConfirmationPersistence) (expiresAtMs : Option Int) :
    Keeps R (allowConfirmation W pending persistence expiresAtMs) := by
  refine ((keeps_quiet_prepare _ _ _).mono (basics_of_pipeline h).quiet).bind fun p => ?_
  refine (keeps_orThrow _ _).bind fun authorization => ?_
  refine (keeps_rememberConfirmation h _ _ _ _).bind fun _ => ?_
  exact (keeps_performConfirmed h p authorization).bind fun _ => keeps_pure _

/-- A confirmation is taken away, then refused or performed. -/
theorem keeps_confirmAction (confirmationId : String) (allow : Bool)
    (persistence : ConfirmationPersistence) (expiresAtMs : Option Int) :
    Keeps R (confirmAction W confirmationId allow persistence expiresAtMs) := by
  have htaken : Keeps R (takePending confirmationId) :=
    (keeps_gets _).bind fun _ => (keeps_orThrow _ _).bind fun _ => Keeps.bind
      (keeps_modify fun s => h.unsaved s _ (Nat.le_refl _) rfl List.prefix_rfl) fun _ =>
        keeps_pure _
  refine htaken.bind fun pending => (keeps_now (basics_of_pipeline h)).bind fun _ => ?_
  refine (keeps_require _ _).bind fun _ => Keeps.ite
    (fun _ => keeps_allowConfirmation h pending persistence expiresAtMs) fun _ => ?_
  refine Keeps.bind_of (keeps_recordNow h _) (returns_recordNow _) fun record hrecord =>
    Keeps.bind (h.appended record ?_) fun _ => keeps_pure _
  rw [hrecord]
  rfl

theorem keeps_answerExecution (proposal : ActionProposal) (app : EntityId) (displayName : String)
    (session : ChatSession) (correlationId : String) (response : ProtocolResponse) :
    Keeps R (answerExecution W proposal app displayName session correlationId response) := by
  have hbasics := basics_of_pipeline h
  have hissued : ∀ receipt,
      Keeps R (issueConfirmation W proposal receipt session displayName) := fun receipt =>
    (keeps_consult hbasics _).bind fun _ => (keeps_now hbasics).bind fun _ => Keeps.bind
      (keeps_modify fun s => h.unsaved s _ (Nat.le_refl _) rfl (List.prefix_append _ _)) fun _ =>
        keeps_pure _
  cases response with
  | execution decision receipt =>
      cases houtcome : decision.outcome with
      | allow =>
          simp only [answerExecution, houtcome]
          exact (keeps_recordUse hbasics app).bind fun _ =>
            (keeps_activity hbasics _ _ _ _ _).bind fun _ => keeps_pure _
      | confirm =>
          simp only [answerExecution, houtcome]
          exact (hissued receipt).bind fun _ =>
            (keeps_activity hbasics _ _ _ _ _).bind fun _ => keeps_pure _
      | deny =>
          simp only [answerExecution, houtcome]
          exact keeps_pure _
  | _ => exact keeps_throw _

/-- An opening is a proposal with its answer. -/
theorem keeps_executeOpen (app : EntityId) (displayName : String) (session : ChatSession)
    (correlationId : String) :
    Keeps R (executeOpen W app displayName session correlationId) := by
  refine Keeps.bind ?_ fun proposal => (keeps_processProposal h _ _ _).bind fun _ =>
    keeps_answerExecution h _ _ _ _ _ _
  exact ((keeps_quiet_applicationClassification app).mono (basics_of_pipeline h).quiet).bind
    fun _ => keeps_ofExcept _

/-- What is left of the requests follows from the pipeline. -/
theorem requests_of_pipeline : Requests W asked R where
  toBasics := basics_of_pipeline h
  saved := h.saved
  revoked := h.revoked
  evaluated record id decision hrecord := h.appended record (by rw [hrecord]; rfl)
  processed := keeps_processProposal h
  confirmed := keeps_confirmAction h
  opened := keeps_executeOpen h

end

end Halquen.Service.Walk
