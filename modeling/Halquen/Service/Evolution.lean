import Halquen.Service.Ledger

/-!
# Requests as steps of the ledger

Every request, and every start of the daemon, is a sequence of steps of the ledger
(`evolves_step`). An invariant of these steps therefore holds in every state of every run
(`invariant_after`).
-/

set_option autoImplicit false

namespace Halquen.Service.Evolution

open Halquen.Domain.Ids Halquen.Domain.Capability Halquen.Domain.Security Halquen.Domain.Agent
open Halquen.Domain.Interaction Halquen.Policy.Engine Halquen.Capabilities.Executor
open Halquen.Audit.Receipt Halquen.Audit.Lifecycle Halquen.Memory.Semantic
open Halquen.Protocol.Messages Halquen.Ai.Agent
open Halquen.Library.Action Halquen.Library.Action.Act Halquen.Library.Run
open Halquen.Service.State Halquen.Service.Proposals Halquen.Service.Confirmations
open Halquen.Service.MemoryService Halquen.Service.Chat Halquen.Service.ChatParser
open Halquen.Service.SecurityService Halquen.Service.Agents Halquen.Service.Handler
open Halquen.Service.Ledger Halquen.Service.Walk
open Halquen.Storage.Grants (StorageError)
open Halquen.Storage.Memory Halquen.Storage.MemoryChain Halquen.Storage.Sqlite

variable {W : World}

/-! ## What all handlers do -/

/-- What happens elsewhere leaves audit tables and memory alone. -/
theorem apart_of_elsewhere (d d' : Database) (h : Elsewhere d d') : Apart d d' :=
  ⟨h.audit, by rw [h.memory]; exact refl_of Remembers _⟩

/-- What all handlers do is one quiet step. -/
theorem basics_evolves : Basics W Evolves where
  quiet := evolves_of_quiet
  elsewhere h := keeps_evolves_call (h.mono apart_of_elsewhere)
  responded s t := .single (ledgerStep_withInteraction s.data t)

/-! ## Memory -/

/-- A first revision needs an item with a generated identifier. -/
theorem keeps_evolves_persist {item : MemoryItem} {revision : MemoryRevision}
    (h : revision.previousRevisionId = none → ∃ stamp, item.id = .generate .memory stamp)
    (evidence : List Evidence) : Keeps Evolves (persist W item revision evidence) := by
  refine (keeps_generate basics_evolves _).bind fun auditId =>
    (keeps_gets _).bind fun attempts => ?_
  intro s
  change Post (query W .persistMemoryRevision _) s fun _ s' => Evolves s s'
  rw [post_query]
  constructor
  -- The call fails before the statement runs, and nothing changes.
  · intro _
    exact .single (.quiet [.refused .persistMemoryRevision] (refl_of Remembers _) rfl
      (fun _ _ h => h) rfl (by simp [Idle]))
  · intro _
    rw [post_onMemoryStore]
    have hdone : Post (persistMemoryRevision (W.failsStatement attempts) auditId item revision
        evidence) ⟨s.data.database.memory, s.data.database.audit⟩ fun r store =>
          (∀ e, r = .error e → store = ⟨s.data.database.memory, s.data.database.audit⟩) ∧
            ∀ u, r = .ok u → Persisted s.data.database.memory item revision store.memory ∧
              store.audit = s.data.database.audit.append [revisionRecord auditId item revision] :=
      ⟨fun e he => persistMemoryRevision_error (Prod.ext he rfl),
        persistMemoryRevision_spec auditId item revision evidence _⟩
    refine Post.mono hdone ?_
    rintro (e | u) store ⟨hundone, hdone⟩
    -- A statement that fails is rolled back.
    · rw [hundone e rfl]
      exact .single (.quiet [.refused .persistMemoryRevision] (refl_of Remembers _) rfl
        (fun _ _ h => h) rfl (by simp [Idle]))
    · obtain ⟨hpersisted, haudit⟩ := hdone u rfl
      -- The item has a stored identifier, or one that was just generated.
      have hitem : (∃ old ∈ s.data.database.memory.items, old.id = item.id) ∨
          ∃ stamp, item.id = .generate .memory stamp := by
        rcases hpersisted.head with ⟨-, hnone, -⟩ | ⟨stored, hstored, -, hid, -⟩
        · exact .inr (h hnone)
        · exact .inl ⟨stored, hstored, hid⟩
      refine .single (.noted (revisionRecord auditId item revision)
        (remembers_persisted hpersisted hitem) haudit (fun hgenerated => ?_) rfl
        (by simp [ServiceState.called, ServiceData.note, ServiceData.withDatabase]))
      have hstamp : ∃ stamp, item.id = .generate .memory stamp := by
        rcases hitem with ⟨old, hold, hid⟩ | hstamp
        · rw [← hid]
          exact hgenerated old hold
        · exact hstamp
      obtain ⟨stamp, hstamp⟩ := hstamp
      rw [revisionRecord, hstamp]
      exact foreign_memoryRevision stamp revision.id

/-- A change of the memory is one step, with its record. -/
theorem writing_evolves : Writing W Evolves where
  stated _ _ _ _ :=
    keeps_evolves_query (keeps_apart_onMemory (keeps_remembers_setMemoryState _ _ _ _))
  persisted _ _ evidence h := keeps_evolves_persist h evidence

/-! ## Openings -/

/-- What a proposal that needs a confirmation has left behind. -/
def Waits (d : ServiceData) (proposal : ActionProposal) (receipt : ExecutionReceipt)
    (d' : ServiceData) : Prop :=
  ∃ records, Records d receipt records 0 ∧ receipt.status = .notExecuted ∧
    Awaiting receipt.executionId proposal.action.capabilityId (records.map AuditRecord.event) ∧
    d' = d.recorded receipt records

/-- A proposal that needs a confirmation is recorded and not executed. -/
theorem waits_of_performed {p : Prepared} (hp : Traceable p)
    (hcoherent : p.evaluation.authorization.isSome = true ↔ p.evaluation.decision.outcome = .allow)
    (hconfirm : p.evaluation.decision.outcome = .confirm) {sessionId : Option ChatSessionId}
    {executor : ExecutorKind} {s s' : ServiceState} {receipt : ExecutionReceipt}
    (h : Performed W p sessionId executor s (.ok receipt) s') :
    Waits s.data p.proposal receipt s'.data := by
  rcases h with ⟨⟨e, he⟩, -⟩ | ⟨d, events, settled, hacted, hfinished⟩
  · cases he
  cases hacted with
  | blocked hblocked =>
      generalize hdata : s'.data = d' at hfinished
      cases hfinished with
      | recorded finishedAtMs records hwritten hfails hadmits =>
          have hblockedEvent :
              p.blockedEvent = .confirmationRequired p.executionId p.descriptor.id := by
            rw [Prepared.blockedEvent, hconfirm]
          refine ⟨records, ⟨hp.generated, hadmits, ?_⟩, rfl, ?_, rfl⟩
          · rw [hwritten.events]
            exact trail_blocked p
          · rw [hwritten.events, hblockedEvent, ← hp.capability]
            exact ⟨_, opening_requestedEvents p, rfl⟩
  | executed authorization reply claimed hauthorization hclaim =>
      have hallow := hcoherent.mp (by rw [hauthorization]; rfl)
      rw [hconfirm] at hallow
      cases hallow

/-- A processed proposal whose outcome is Confirm has been recorded as waiting. -/
theorem processProposal_waits (proposal : ActionProposal) (sessionId : Option ChatSessionId)
    (s : ServiceState) :
    Returns (executeProposal W proposal sessionId) s fun response s' =>
      ∃ decision receipt, response = .execution decision receipt ∧
        (decision.outcome = .confirm → Waits s.data proposal receipt s'.data) := by
  rw [executeProposal, processProposal, returns_bind]
  refine Post.mono (prepare_spec PolicyEngine.authorizeProposal proposal sessionId s) ?_
  rintro r s₁ ⟨hquiet, hprepares⟩ p rfl
  have hp := hprepares p rfl
  rw [returns_bind]
  refine Post.mono (perform_spec p sessionId false s₁) ?_
  rintro r s' ⟨hperformed, -⟩ receipt rfl
  rw [returns_pure]
  refine ⟨_, receipt, rfl, fun hconfirm => ?_⟩
  have hwaits := waits_of_performed (traceable_of_prepares hp hp.coherent) hp.coherent.isSome_iff
    hconfirm hperformed
  rwa [hquiet.data, hp.proposal] at hwaits

theorem keeps_quiet_proposeOpen (correlationId : String) (app : EntityId) :
    Keeps Quiet (proposeOpen W correlationId app) :=
  (keeps_quiet_applicationClassification app).bind fun _ => keeps_ofExcept _

/-- The proposal to open an application comes from its stored classification. -/
theorem returns_proposeOpen (correlationId : String) (app : EntityId) (s : ServiceState) :
    Returns (proposeOpen W correlationId app) s fun proposal _ =>
      openProposal correlationId app
        (Storage.Labels.classify s.data.database.labels .application app.asStr) = .ok proposal := by
  rw [proposeOpen, returns_bind]
  refine (returns_read rfl _ s).mono ?_
  rintro classification s₁ ⟨hclassification, -, -⟩
  rw [returns_ofExcept]
  intro proposal hproposal
  cases hclassification
  cases hopen : openProposal correlationId app
      (Storage.Labels.classify s.data.database.labels .application app.asStr) with
  | error e =>
      rw [hopen] at hproposal
      cases hproposal
  | ok found =>
      rw [hopen] at hproposal
      cases hproposal
      rfl

/-- The entry of a confirmation goes in before anything else happens to the data. -/
theorem post_issueConfirmation {proposal : ActionProposal} {receipt : ExecutionReceipt}
    {session : ChatSession} {displayName : String} {s : ServiceState}
    {Q : Except Failure ConfirmationPrompt → ServiceState → Prop} :
    Post (issueConfirmation W proposal receipt session displayName) s Q ↔
      Q (.ok (promptOf (confirmationIdOf (W.stamp s.consulted)) displayName
          (saturatingAdd (W.clock s.next.consulted) confirmationTtlMs) proposal))
        { s.next.next with
          data := (s.data.setPending (confirmationIdOf (W.stamp s.consulted)) (some
            ⟨receipt.executionId, proposal, "Open " ++ displayName,
              saturatingAdd (W.clock s.next.consulted) confirmationTtlMs, some session.id⟩)).note
                [.issued (confirmationIdOf (W.stamp s.consulted))] } := Iff.rfl

/-- The execution and the entry that waits for its confirmation are one step of the ledger. -/
theorem ledgerStep_issued {d d₁ : ServiceData} {proposal : ActionProposal}
    {receipt : ExecutionReceipt} (h : Waits d proposal receipt d₁) {correlationId : String}
    {app : EntityId} {classification : ResourceClassification}
    (hproposal : openProposal correlationId app classification = .ok proposal)
    (confirmationId : String) (title : String) (expiresAtMs : Int)
    (sessionId : Option ChatSessionId) :
    LedgerStep d ((d₁.setPending confirmationId (some
      ⟨receipt.executionId, proposal, title, expiresAtMs, sessionId⟩)).note
        [.issued confirmationId]) := by
  obtain ⟨records, hrecords, hstatus, hawaiting, rfl⟩ := h
  exact .awaiting receipt records confirmationId _ rfl hrecords hawaiting hstatus rfl
    ⟨_, _, _, hproposal⟩ rfl rfl rfl

/-- An opening is an execution with its record, or a confirmation that waits. -/
theorem keeps_evolves_executeOpen (app : EntityId) (displayName : String) (session : ChatSession)
    (correlationId : String) :
    Keeps Evolves (executeOpen W app displayName session correlationId) := by
  intro s
  change Post (executeOpen W app displayName session correlationId) s fun _ s' => Evolves s s'
  refine Post.bind (((keeps_quiet_proposeOpen correlationId app).post s).and
    (returns_proposeOpen correlationId app s)) ?_ fun _ s₁ h₁ => evolves_of_quiet _ _ h₁.1
  rintro proposal s₁ ⟨hquiet, hproposal⟩
  have hproposal := hproposal proposal rfl
  have hs₁ : Evolves s s₁ := evolves_of_quiet _ _ hquiet
  refine Post.bind (((keeps_evolves_processProposal proposal (some session.id) false).post s₁).and
    (processProposal_waits proposal (some session.id) s₁)) ?_
    fun _ s₂ h₂ => trans_of Evolves hs₁ h₂.1
  rintro response s₂ ⟨hs₂, hresponse⟩
  obtain ⟨decision, receipt, rfl, hwaits⟩ := hresponse response rfl
  have hevolves : Evolves s s₂ := trans_of Evolves hs₁ hs₂
  have hgoes : ∀ {α : Type} {m : Operation α} (s₃ : ServiceState), Evolves s s₃ →
      Keeps Evolves m → Post m s₃ fun _ s' => Evolves s s' :=
    fun s₃ hs₃ hm => Post.mono (hm.post s₃) fun _ _ h => trans_of Evolves hs₃ h
  cases houtcome : decision.outcome with
  -- The launch goes on, and its use is recorded.
  | allow =>
      simp only [answerExecution, houtcome]
      exact hgoes s₂ hevolves ((keeps_recordUse basics_evolves app).bind fun _ =>
        (keeps_activity basics_evolves _ _ _ _ _).bind fun _ => keeps_pure _)
  -- A confirmation is issued for the proposal that was processed.
  | confirm =>
      simp only [answerExecution, houtcome]
      rw [post_bind, post_issueConfirmation, next_ok]
      refine hgoes _ ?_ ((keeps_activity basics_evolves _ _ _ _ _).bind fun _ => keeps_pure _)
      exact trans_of Evolves hs₁ (.single (ledgerStep_issued (hwaits houtcome) hproposal _ _ _ _))
  | deny =>
      simp only [answerExecution, houtcome]
      exact hgoes s₂ hevolves (keeps_pure _)

/-! ## Requests -/

/-- Every request is a sequence of steps. -/
theorem requests_evolves (asked : Option PermissionId) : Requests W asked Evolves where
  toBasics := basics_evolves
  saved s _ _ := trans_of Evolves (evolves_of_quiet _ _ (quiet_advance s 1))
    ((keeps_evolves_query (keeps_apart_onGrants _)).post s.next)
  revoked _ _ := keeps_evolves_query (keeps_apart_onGrants _)
  evaluated _ id decision hrecord :=
    keeps_evolves_appendAudit (hrecord ▸ foreign_policyEvaluated id decision)
  processed := keeps_evolves_processProposal
  confirmed := keeps_evolves_confirmAction
  opened := keeps_evolves_executeOpen

/-- The sessions of agents have generated identifiers. -/
theorem foreign_of_sessionOf {event : AuditEvent} {stamp : Stamp}
    (h : sessionOf event = some (.generate .agentSession stamp)) : Foreign event := by
  cases event with
  | agentSessionStarted id identity =>
      cases h
      exact foreign_agentSessionStarted stamp identity
  | agentSessionFinished id status =>
      cases h
      exact foreign_agentSessionFinished stamp status
  | _ => cases h

/-- Events about agent sessions are of another family. -/
theorem attendance_evolves :
    Attendance W (fun id => ∃ stamp, id = .generate .agentSession stamp) Evolves where
  quiet := evolves_of_quiet
  generates stamp := ⟨stamp, rfl⟩
  begun _ := keeps_evolves_query (keeps_apart_onSessions _)
  finished _ _ _ := keeps_evolves_query (keeps_apart_onSessions _)
  noted record id hid hrecord := by
    obtain ⟨stamp, rfl⟩ := hid
    exact keeps_evolves_appendAudit (foreign_of_sessionOf hrecord)

/-- So are those of the daemon. -/
theorem starting_evolves : Starting W Evolves where
  quiet := evolves_of_quiet
  begun _ := keeps_evolves_query (keeps_apart_onSessions _)
  finished _ _ := keeps_evolves_query (keeps_apart_onSessions _)
  started s registry policy id := by
    refine .single (.quiet [] (refl_of Remembers _) rfl (fun c p hp => ?_)
      (List.append_nil _).symm (by simp))
    cases hp

/-! ## Runs -/

/-- Whatever happens to the service is a sequence of steps of the ledger. -/
theorem evolves_step (s : ServiceState) (input : Input) : Evolves s (step W s input) := by
  cases input with
  | request envelope =>
      exact keeps_handle envelope (requests_evolves _) (fun _ => writing_evolves)
        (fun _ => attendance_evolves) s
  | restart regular registry policy =>
      exact keeps_restart starting_evolves regular registry policy s

/-- An invariant of the steps that holds of the service on an empty database holds after every
run. -/
theorem invariant_after {I : ServiceData → Prop}
    (hstep : ∀ d d', LedgerStep d d' → I d → I d') {registry : CapabilityRegistry}
    {policy : PolicyEngine} (hblank : I (blank W registry policy).data) (inputs : List Input) :
    I (after W registry policy inputs).data := by
  have hsteps : ∀ d d', Relation.ReflTransGen LedgerStep d d' → I d → I d' := by
    intro d d' h hd
    induction h with
    | refl => exact hd
    | tail _ hlast ih => exact hstep _ _ hlast ih
  have hinitial : I (initial W registry policy).data :=
    hsteps _ _ (keeps_fromParts starting_evolves registry policy _) hblank
  exact run_invariant (I := fun s : ServiceState => I s.data)
    (fun s input hs => hsteps _ _ (evolves_step s input) hs) hinitial inputs

end Halquen.Service.Evolution
