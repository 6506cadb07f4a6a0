import Halquen.Policy.Authorization
import Halquen.Service.State

/-!
# Processing of proposals

A proposal is evaluated against the stored grants and the profile, executed if the policy allows
it, and recorded in the audit trail in every case. `prepare` evaluates and `perform` acts on the
evaluation; `processProposal` is one after the other.

`perform_spec` lists the ways in which `perform` can end. In each of them the data of the service
afterwards is given in terms of the data before.
-/

set_option autoImplicit false

namespace Halquen.Service.Proposals

open Halquen.Domain.Ids Halquen.Domain.Capability Halquen.Domain.Security
open Halquen.Policy.Engine Halquen.Policy.Authorization Halquen.Capabilities.Executor
open Halquen.Audit.Receipt Halquen.Protocol.Messages
open Halquen.Library.Action Halquen.Library.Action.Act
open Halquen.Service.Context Halquen.Service.State
open Halquen.Storage.Audit Halquen.Storage.Grants Halquen.Storage.Labels Halquen.Storage.Sqlite

/-! ## Evaluation -/

/-- The registered descriptor of an action. -/
def descriptorFor (action : ActionRequest) : Operation CapabilityDescriptor := do
  let registry ← gets fun s => s.data.registry
  let descriptor ← orThrow (failure .notFound "capability is not registered")
    (registry.get action.capabilityId)
  require (action.arguments.kind == descriptor.arguments)
    (failure .invalidAction "action arguments do not match the capability contract")
  return descriptor

section

variable (W : World)

/-- `policy_context`: the profile and the one grant that matches the proposal. -/
def policyContext (proposal : ActionProposal) (sessionId : Option ChatSessionId) :
    Operation PolicyContext := do
  let timestamp ← now W
  let profile ← read W .securityProfile fun d => .ok d.profile
  let grant ← read W .activePermissionGrantForProposal fun d =>
    activePermissionGrantForProposal W.serde d.sessions.grants proposal
      (permissionSession proposal sessionId) (permissionAgent proposal) timestamp
  let context := contextFor profile proposal sessionId timestamp
  return grant.elim context context.addPermissionGrant

/-- Stored classification of an application. -/
def applicationClassification (app : EntityId) : Operation ResourceClassification :=
  read W .resourceLabelFor fun d => .ok (classify d.labels .application app.asStr)

/-- Context of an action that the user asks for, with the resource that it concerns. -/
def trustedUserContext : ActionArguments → Operation ActionContext
  | .none => return .trustedUser none
  | .openApp app => do
      let classification ← applicationClassification W app
      return (ActionContext.trustedUser none).withResource
        ⟨.application, app.asStr, classification⟩

/-- `trusted_user_proposal`: an action that the user has asked for. -/
def trustedUserProposal (action : ActionRequest) : Operation ActionProposal := do
  let context ← trustedUserContext W action.arguments
  ofExcept ((ActionProposal.new action context).mapError fun _ => invalidActionContext)

/-- An entry point of the policy engine. -/
abbrev Evaluator := PolicyEngine → CapabilityDescriptor → ActionProposal → ExecutionId →
  PolicyContext → PolicyEvaluation

/-- An evaluated proposal. -/
structure Prepared where
  descriptor : CapabilityDescriptor
  proposal : ActionProposal
  executionId : ExecutionId
  proposalId : ProposalId
  startedAtMs : Int
  evaluation : PolicyEvaluation

/-- The part of `process_proposal` that decides, before anything is written. -/
def prepare (evaluate : Evaluator) (proposal : ActionProposal)
    (sessionId : Option ChatSessionId) : Operation Prepared := do
  let descriptor ← descriptorFor proposal.action
  let executionId ← generate W .execution
  let proposalId ← generate W .proposal
  let startedAtMs ← now W
  let context ← policyContext W proposal sessionId
  let policy ← gets fun s => s.data.policy
  return {
    descriptor, proposal, executionId, proposalId, startedAtMs
    evaluation := evaluate policy descriptor proposal executionId context }

/-! ## Audit records -/

/-- Records of events at one time, each under a fresh identifier. -/
def auditRecords (createdAtMs : Int) : List AuditEvent → Operation (List AuditRecord)
  | [] => return []
  | event :: events => do
      let id ← generate W .audit
      let records ← auditRecords createdAtMs events
      return ⟨id, createdAtMs, event⟩ :: records

/-- Record of an event that happens now. -/
def recordNow (event : AuditEvent) : Operation AuditRecord := do
  let id ← generate W .audit
  let createdAtMs ← now W
  return ⟨id, createdAtMs, event⟩

end

namespace Prepared

/-- What is audited of every proposal. -/
def requestedEvents (p : Prepared) : List AuditEvent := [
  .proposalCreated p.executionId p.proposalId p.descriptor.id p.proposal.context.sanitizedSummary,
  .actionRequested p.executionId p.descriptor.id p.descriptor.version.toNat,
  .policyEvaluated (some p.executionId) p.descriptor.id p.evaluation.decision]

/-- What is audited before an execution. -/
def authorizedEvents (p : Prepared) : List AuditEvent := [
  .authorizationCreated p.executionId p.descriptor.id p.proposal.context.agent,
  .executionStarted p.executionId p.descriptor.id]

/-- The user has confirmed. -/
def acceptedEvent (p : Prepared) : AuditEvent :=
  .confirmationReceived p.executionId p.descriptor.id true p.proposal.context.agent

/-- What is audited of a proposal that is not executed. -/
def blockedEvent (p : Prepared) : AuditEvent :=
  match p.evaluation.decision.outcome with
  | .confirm => .confirmationRequired p.executionId p.descriptor.id
  | .deny | .allow => .actionDenied p.executionId p.descriptor.id

end Prepared

/-! ## Settlement -/

/-- `execution_error_code`. -/
def executionErrorCode : ExecutionError → String
  | .invalidAuthorization => "executor_contract_rejected"
  | .unknownApplication => "application_not_registered"
  | .executableIdentityChanged => "executable_identity_changed"
  | .spawnFailed => "application_spawn_failed"
  | .registryUnavailable => "application_registry_unavailable"

/-- The result of an execution, as it is stored. -/
def resultCode : ExecutionResultCode → SafeResultCode
  | .simulated => .simulated
  | .launched => .launched

/-- The status of an execution that was completed. -/
def resultStatus : ExecutionResultCode → ExecutionStatus
  | .simulated => .dryRunSucceeded
  | .launched => .succeeded

/-- What the receipt says about the end of an execution. -/
structure Settlement where
  status : ExecutionStatus
  resultCode : Option SafeResultCode
  errorCode : Option String
  sanitizedError : Option String

/-- Texts with which one of the two pipelines describes a failed execution. -/
structure FailureTexts where
  rejected : String
  timedOut : String

/-- What an execution is recorded as, by the reply of the executor. -/
def settlement (texts : FailureTexts) : ExecutorReply → Settlement
  | .completed code => ⟨resultStatus code, some (resultCode code), none, none⟩
  | .rejected error => ⟨.failed, none, some (executionErrorCode error), some texts.rejected⟩
  | .timedOut => ⟨.timedOut, none, some "capability_timeout", some texts.timedOut⟩

/-- What a proposal without authorization is recorded as. -/
def notExecuted : Settlement := ⟨.notExecuted, none, none, none⟩

/-- The last event of an execution. -/
def Prepared.terminalEvent (p : Prepared) : ExecutorReply → AuditEvent
  | .completed code => .executionCompleted p.executionId p.descriptor.id (some (resultCode code))
  | .rejected error => .executionFailed p.executionId p.descriptor.id (executionErrorCode error)
  | .timedOut => .executionTimedOut p.executionId p.descriptor.id "capability_timeout"

/-- The receipt of an execution, which ends no earlier than it has begun. -/
def Prepared.receipt (p : Prepared) (settled : Settlement) (finishedAtMs : Int) :
    ExecutionReceipt where
  executionId := p.executionId
  capabilityId := p.descriptor.id
  capabilityVersion := p.descriptor.version.toNat
  startedAtMs := p.startedAtMs
  finishedAtMs := max finishedAtMs p.startedAtMs
  policyDecision := p.evaluation.decision
  status := settled.status
  reversible := p.descriptor.reversible
  resultCode := settled.resultCode
  errorCode := settled.errorCode
  sanitizedError := settled.sanitizedError
  compensationReference := none

section

variable (W : World)

/-- The receipt and its records are stored together. -/
def finishExecution (p : Prepared) (records : List AuditRecord) (settled : Settlement) :
    Operation ExecutionReceipt := do
  let finishedAtMs ← now W
  let receipt := p.receipt settled finishedAtMs
  query W .recordExecution (onAudit (recordExecution receipt records))
  return receipt

/-! ## Claims -/

/-- The claim of a grant for a proposal, as the history records it. -/
def claimEffects (proposal : ActionProposal) (sessionId : Option ChatSessionId) (nowMs : Int)
    (rows : List GrantRow) : List Effect :=
  (claimRow (.ofProposal W.serde proposal (permissionSession proposal sessionId)
    (permissionAgent proposal) nowMs) rows).toList.map fun row => .claimed row nowMs

/-- Claims a use of the grant that decided, and notes which row it was. -/
def claimPermission (proposal : ActionProposal) (sessionId : Option ChatSessionId) (nowMs : Int) :
    Operation (Option PermissionId) := do
  let rows ← gets fun s => s.data.database.sessions.grants
  let claimed ← query W .claimPermissionForProposal <| onGrants fun rows =>
    claimPermissionForProposal W.serde rows proposal (permissionSession proposal sessionId)
      (permissionAgent proposal) nowMs
  record (claimEffects W proposal sessionId nowMs rows)
  return claimed

/-- A grant that decided the evaluation has to be claimed. -/
def claimDeciding (p : Prepared) (sessionId : Option ChatSessionId) : Operation Unit :=
  if p.evaluation.decision.reason = .persistentExactAllow then do
    let claimed ← claimPermission W p.proposal sessionId p.startedAtMs
    require claimed.isSome (failure .privacyDenied "the exact permission is no longer active")
  else
    return ()

/-! ## Execution -/

/-- The messages of a failed proposal. -/
def proposalTexts : FailureTexts where
  rejected := "executor rejected the authorized request"
  timedOut := "capability execution exceeded its trusted deadline"

/-- A dry run never reaches the configured executor. -/
def executorFor (simulate : Bool) : ExecutorKind := if simulate then .dryRun else .configured

/-- The part of `process_proposal` that acts: claim, audit, execution, receipt. -/
def perform (p : Prepared) (sessionId : Option ChatSessionId) (simulate : Bool) :
    Operation ExecutionReceipt := do
  let requested ← auditRecords W p.startedAtMs p.requestedEvents
  match p.evaluation.authorization with
  | some authorization => do
      claimDeciding W p sessionId
      let authorized ← auditRecords W p.startedAtMs p.authorizedEvents
      let reply ← execute W (executorFor simulate) authorization
      let terminal ← recordNow W (p.terminalEvent reply)
      finishExecution W p (requested ++ authorized ++ [terminal]) (settlement proposalTexts reply)
  | none => do
      let blocked ← recordNow W p.blockedEvent
      finishExecution W p (requested ++ [blocked]) notExecuted

/-- `process_proposal`. -/
def processProposal (proposal : ActionProposal) (sessionId : Option ChatSessionId)
    (simulate : Bool) : Operation ProtocolResponse := do
  let p ← prepare W PolicyEngine.authorizeProposal proposal sessionId
  let receipt ← perform W p sessionId simulate
  return if simulate then .dryRun p.evaluation.decision receipt
    else .execution p.evaluation.decision receipt

/-- `dry_run_proposal`. -/
def dryRunProposal (proposal : ActionProposal) (sessionId : Option ChatSessionId) :
    Operation ProtocolResponse := processProposal W proposal sessionId true

/-- `execute_proposal`. -/
def executeProposal (proposal : ActionProposal) (sessionId : Option ChatSessionId) :
    Operation ProtocolResponse := processProposal W proposal sessionId false

/-- `evaluate_action`: the decision is audited and nothing is executed. -/
def evaluateAction (action : ActionRequest) : Operation ProtocolResponse := do
  let descriptor ← descriptorFor action
  let proposal ← trustedUserProposal W action
  let context ← policyContext W proposal none
  let policy ← gets fun s => s.data.policy
  let decision := policy.evaluateProposal descriptor proposal context
  let timestamp ← now W
  let id ← generate W .audit
  query W .appendAudit (onAudit (appendAudit
    ⟨id, timestamp, .policyEvaluated none descriptor.id decision⟩))
  return .evaluation decision

/-- `dry_run_action`. -/
def dryRunAction (action : ActionRequest) : Operation ProtocolResponse := do
  let proposal ← trustedUserProposal W action
  dryRunProposal W proposal none

/-- `execute_action`. -/
def executeAction (action : ActionRequest) : Operation ProtocolResponse := do
  let proposal ← trustedUserProposal W action
  executeProposal W proposal none

end

/-! ## Facts about the evaluation -/

section

variable {W : World}

theorem keeps_quiet_descriptorFor (action : ActionRequest) :
    Keeps Quiet (descriptorFor action) :=
  (keeps_gets _).bind fun _ => (keeps_orThrow _ _).bind fun _ => (keeps_require _ _).bind fun _ =>
    keeps_pure _

theorem keeps_quiet_policyContext (proposal : ActionProposal) (sessionId : Option ChatSessionId) :
    Keeps Quiet (policyContext W proposal sessionId) :=
  keeps_quiet_now.bind fun _ => (keeps_quiet_read rfl _).bind fun _ =>
    (keeps_quiet_read rfl _).bind fun _ => keeps_pure _

theorem keeps_quiet_applicationClassification (app : EntityId) :
    Keeps Quiet (applicationClassification W app) := keeps_quiet_read rfl _

theorem keeps_quiet_trustedUserProposal (action : ActionRequest) :
    Keeps Quiet (trustedUserProposal W action) := by
  refine Keeps.bind ?_ fun _ => keeps_ofExcept _
  cases action.arguments with
  | none => exact keeps_pure _
  | openApp app =>
      exact (keeps_quiet_applicationClassification app).bind fun _ => keeps_pure _

/-- Deciding about a proposal changes nothing. -/
theorem keeps_quiet_prepare (evaluate : Evaluator) (proposal : ActionProposal)
    (sessionId : Option ChatSessionId) : Keeps Quiet (prepare W evaluate proposal sessionId) :=
  (keeps_quiet_descriptorFor _).bind fun _ => (keeps_quiet_generate _).bind fun _ =>
    (keeps_quiet_generate _).bind fun _ => keeps_quiet_now.bind fun _ =>
      (keeps_quiet_policyContext _ _).bind fun _ => (keeps_gets _).bind fun _ => keeps_pure _

/-- The policy context of a proposal at a time, as the tables give it. -/
def contextAt (W : World) (d : Database) (proposal : ActionProposal)
    (sessionId : Option ChatSessionId) (timestamp : Int) : Except StorageError PolicyContext :=
  (activePermissionGrantForProposal W.serde d.sessions.grants proposal
    (permissionSession proposal sessionId) (permissionAgent proposal) timestamp).map fun grant =>
      grant.elim (contextFor d.profile proposal sessionId timestamp)
        (contextFor d.profile proposal sessionId timestamp).addPermissionGrant

/-- The context is read from the tables at the time of asking. -/
theorem returns_policyContext (proposal : ActionProposal) (sessionId : Option ChatSessionId)
    (s : ServiceState) :
    Returns (policyContext W proposal sessionId) s fun context s' =>
      contextAt W s.data.database proposal sessionId (W.clock s.consulted) = .ok context ∧
        s'.data = s.data ∧ s'.consulted = s.consulted + 1 := by
  simp only [policyContext, returns_bind, returns_now]
  refine (returns_read rfl _ _).mono ?_
  rintro profile s₁ ⟨hprofile, hdata₁, hconsulted₁⟩
  refine (returns_read rfl _ _).mono ?_
  rintro grant s₂ ⟨hgrant, hdata₂, hconsulted₂⟩
  rw [returns_pure, contextAt]
  cases hprofile
  rw [hdata₁] at hgrant
  simp only [ServiceState.data_next] at hgrant hdata₁ ⊢
  refine ⟨?_, by rw [hdata₂, hdata₁], by rw [hconsulted₂, hconsulted₁]; rfl⟩
  rw [hgrant]
  rfl

/-- What an evaluated proposal is made of. -/
structure Prepares (W : World) (evaluate : Evaluator) (asked : ActionProposal)
    (sessionId : Option ChatSessionId) (s : ServiceState) (p : Prepared) : Prop where
  proposal : p.proposal = asked
  descriptor : s.data.registry.get asked.action.capabilityId = some p.descriptor
  arguments : asked.action.arguments.kind = p.descriptor.arguments
  executionId : p.executionId = .generate .execution (W.stamp s.consulted)
  startedAtMs : p.startedAtMs = W.clock (s.consulted + 2)
  evaluation : ∃ context,
    contextAt W s.data.database asked sessionId (W.clock (s.consulted + 3)) = .ok context ∧
      p.evaluation = evaluate s.data.policy p.descriptor asked p.executionId context

/-- What is prepared is the decision of the policy on the state. -/
theorem returns_prepare (evaluate : Evaluator) (proposal : ActionProposal)
    (sessionId : Option ChatSessionId) (s : ServiceState) :
    Returns (prepare W evaluate proposal sessionId) s fun p s' =>
      Prepares W evaluate proposal sessionId s p ∧ s'.consulted = s.consulted + 4 := by
  simp only [prepare, descriptorFor, returns_bind, returns_gets, returns_orThrow, returns_require,
    returns_pure, beq_iff_eq, returns_generate, returns_now]
  intro descriptor hdescriptor harguments
  refine (returns_policyContext _ _ _).mono ?_
  rintro context s' ⟨hcontext, hdata, hconsulted⟩
  exact ⟨⟨rfl, hdescriptor, harguments, rfl, rfl, context, hcontext, by rw [hdata]; rfl⟩,
    hconsulted⟩

theorem prepare_spec (evaluate : Evaluator) (proposal : ActionProposal)
    (sessionId : Option ChatSessionId) (s : ServiceState) :
    Post (prepare W evaluate proposal sessionId) s fun r s' =>
      Quiet s s' ∧ ∀ p, r = .ok p → Prepares W evaluate proposal sessionId s p :=
  Post.and ((keeps_quiet_prepare evaluate proposal sessionId).post s)
    (Post.mono (returns_prepare evaluate proposal sessionId s) fun _ _ h p hp => (h p hp).1)

/-- An authorization is that of its proposal. -/
theorem Prepares.coherent {asked : ActionProposal} {sessionId : Option ChatSessionId}
    {s : ServiceState} {p : Prepared}
    (h : Prepares W PolicyEngine.authorizeProposal asked sessionId s p) :
    Coherent p.evaluation p.executionId p.descriptor asked := by
  obtain ⟨context, -, heq⟩ := h.evaluation
  rw [heq]
  exact (authorizeProposal_spec _ _ _ _ _).1

theorem Prepares.coherent_confirmed {asked : ActionProposal} {sessionId : Option ChatSessionId}
    {s : ServiceState} {p : Prepared}
    (h : Prepares W PolicyEngine.authorizeConfirmedProposalOnce asked sessionId s p) :
    Coherent p.evaluation p.executionId p.descriptor asked := by
  obtain ⟨context, -, heq⟩ := h.evaluation
  rw [heq]
  exact (authorizeConfirmedProposalOnce_spec _ _ _ _ _).1

/-! ## Facts about the execution -/

/-- Records of these events, under identifiers generated at increasing consultations. -/
structure Written (W : World) (lo hi : Nat) (events : List AuditEvent)
    (records : List AuditRecord) : Prop where
  events : records.map AuditRecord.event = events
  stamps : ∃ ticks : List Nat, ticks.Pairwise (· < ·) ∧ (∀ n ∈ ticks, lo ≤ n ∧ n < hi) ∧
    records.map AuditRecord.id = ticks.map fun n => .generate .audit (W.stamp n)

/-- Records are written one list after another. -/
theorem Written.append {lo mid hi : Nat} {events events' : List AuditEvent}
    {records records' : List AuditRecord} (h : Written W lo mid events records)
    (h' : Written W mid hi events' records') (hlo : lo ≤ mid) (hhi : mid ≤ hi) :
    Written W lo hi (events ++ events') (records ++ records') := by
  obtain ⟨ticks, hsorted, hbounds, hids⟩ := h.stamps
  obtain ⟨ticks', hsorted', hbounds', hids'⟩ := h'.stamps
  refine ⟨by rw [List.map_append, h.events, h'.events], ticks ++ ticks', ?_, ?_, ?_⟩
  · refine List.pairwise_append.mpr ⟨hsorted, hsorted', fun a ha b hb => ?_⟩
    exact Nat.lt_of_lt_of_le (hbounds a ha).2 (hbounds' b hb).1
  · intro n hn
    rcases List.mem_append.mp hn with hn | hn
    · exact ⟨(hbounds n hn).1, Nat.lt_of_lt_of_le (hbounds n hn).2 hhi⟩
    · exact ⟨Nat.le_trans hlo (hbounds' n hn).1, (hbounds' n hn).2⟩
  · rw [List.map_append, List.map_append, hids, hids']

theorem Written.mono {lo lo' hi hi' : Nat} {events : List AuditEvent} {records : List AuditRecord}
    (h : Written W lo hi events records) (hlo : lo' ≤ lo) (hhi : hi ≤ hi') :
    Written W lo' hi' events records := by
  obtain ⟨ticks, hsorted, hbounds, hids⟩ := h.stamps
  exact ⟨h.events, ticks, hsorted, fun n hn => ⟨Nat.le_trans hlo (hbounds n hn).1,
    Nat.lt_of_lt_of_le (hbounds n hn).2 hhi⟩, hids⟩

/-- Records are written without a failure. -/
theorem post_auditRecords {createdAtMs : Int} {events : List AuditEvent} {s : ServiceState}
    {Q : Except Failure (List AuditRecord) → ServiceState → Prop}
    (h : ∀ records, Written W s.consulted (s.consulted + events.length) events records →
      Q (.ok records) (s.advance events.length)) :
    Post (auditRecords W createdAtMs events) s Q := by
  induction events generalizing s Q with
  | nil => exact h [] ⟨rfl, [], .nil, by simp, rfl⟩
  | cons event events ih =>
      rw [auditRecords, post_bind, post_generate, next_ok, post_bind]
      refine ih fun records hrecords => ?_
      rw [next_ok, post_pure, ServiceState.next_advance]
      have hfirst : Written W s.consulted (s.consulted + 1) [event]
          [⟨.generate .audit (W.stamp s.consulted), createdAtMs, event⟩] :=
        ⟨rfl, [s.consulted], List.pairwise_singleton _ _, by simp, rfl⟩
      refine h _ (hfirst.append (hrecords.mono (Nat.le_refl _) ?_) (Nat.le_succ _) (by simp))
      simp only [ServiceState.consulted_next, List.length_cons]
      omega

theorem post_recordNow {event : AuditEvent} {s : ServiceState}
    {Q : Except Failure AuditRecord → ServiceState → Prop}
    (h : ∀ record, Written W s.consulted (s.consulted + 2) [event] [record] →
      Q (.ok record) (s.advance 2)) : Post (recordNow W event) s Q := by
  simp only [recordNow, post_bind, post_generate, next_ok, post_now, post_pure]
  exact h _ ⟨rfl, [s.consulted], List.pairwise_singleton _ _, by simp, rfl⟩

/-- An effect that is neither an invocation nor a confirmation. -/
def Idle : Effect → Prop
  | .claimed .. | .refused _ => True
  | .invoked .. | .issued _ => False

/-- How the grant that decided an evaluation is claimed. -/
inductive ClaimOutcome (W : World) (p : Prepared) (sessionId : Option ChatSessionId)
    (d : ServiceData) : ServiceData → Prop where
  | unneeded (h : p.evaluation.decision.reason ≠ .persistentExactAllow) :
      ClaimOutcome W p sessionId d d
  | claimed (id : PermissionId) (row : GrantRow) (rows : List GrantRow)
      (h : p.evaluation.decision.reason = .persistentExactAllow)
      (hclaim : claimPermissionForProposal W.serde d.database.sessions.grants p.proposal
        (permissionSession p.proposal sessionId) (permissionAgent p.proposal) p.startedAtMs =
          (.ok (some id), rows))
      (hrow : claimRow (.ofProposal W.serde p.proposal (permissionSession p.proposal sessionId)
        (permissionAgent p.proposal) p.startedAtMs) d.database.sessions.grants = some row) :
      ClaimOutcome W p sessionId d ((d.withGrants rows).note [.claimed row p.startedAtMs])

/-- A request that ended early: at most the grants have changed. -/
structure Stopped (d d' : ServiceData) : Prop where
  data : ∃ rows effects, d' = (d.withGrants rows).note effects ∧ ∀ e ∈ effects, Idle e

/-- What happened before the execution is recorded: nothing, or the claim and the invocation. -/
inductive Acted (W : World) (p : Prepared) (sessionId : Option ChatSessionId)
    (executor : ExecutorKind) (d : ServiceData) :
    ServiceData → List AuditEvent → Settlement → Prop where
  | blocked (h : p.evaluation.authorization = none) :
      Acted W p sessionId executor d d (p.requestedEvents ++ [p.blockedEvent]) notExecuted
  | executed (authorization : ExecutionAuthorization) (reply : ExecutorReply)
      (claimed : ServiceData) (h : p.evaluation.authorization = some authorization)
      (hclaim : ClaimOutcome W p sessionId d claimed) :
      Acted W p sessionId executor d (claimed.note [.invoked executor authorization reply])
        (p.requestedEvents ++ p.authorizedEvents ++ [p.terminalEvent reply])
        (settlement proposalTexts reply)

/-- The attempt to record an execution. -/
inductive Finished (W : World) (p : Prepared) (events : List AuditEvent) (settled : Settlement)
    (lo hi : Nat) (fails : Bool) (d : ServiceData) :
    Except Failure ExecutionReceipt → ServiceData → Prop where
  | recorded (finishedAtMs : Int) (records : List AuditRecord)
      (hwritten : Written W lo hi events records) (hfails : fails = false)
      (hadmits : d.database.audit.Admits (p.receipt settled finishedAtMs)) :
      Finished W p events settled lo hi fails d (.ok (p.receipt settled finishedAtMs))
        (d.recorded (p.receipt settled finishedAtMs) records)
  | unrecorded (finishedAtMs : Int) (records : List AuditRecord)
      (hwritten : Written W lo hi events records)
      (hrefused : fails = true ∨ ¬ (d.database.audit.Admits (p.receipt settled finishedAtMs) ∧
        d.database.audit.Appendable records)) :
      Finished W p events settled lo hi fails d (.error internalError)
        (d.note [.refused .recordExecution])

/-- Putting the rows back that are there changes nothing. -/
@[simp]
theorem withGrants_self (d : ServiceData) : d.withGrants d.database.sessions.grants = d := rfl

@[simp]
theorem note_nil (d : ServiceData) : d.note [] = d := by
  simp [ServiceData.note]

/-- What the attempt to record an execution adds to the history. -/
theorem history_finished {p : Prepared} {events : List AuditEvent} {settled : Settlement}
    {lo hi : Nat} {fails : Bool} {d d' : ServiceData} {r : Except Failure ExecutionReceipt}
    (h : Finished W p events settled lo hi fails d r d') :
    ∃ effects, d'.history = d.history ++ effects ∧ ∀ e ∈ effects, Idle e := by
  cases h with
  | recorded => exact ⟨[], (List.append_nil _).symm, by simp⟩
  | unrecorded => exact ⟨[.refused .recordExecution], rfl, by simp [Idle]⟩

/-- The receipt and its records are stored together or not at all. -/
theorem finishExecution_spec (p : Prepared) {events : List AuditEvent} {lo : Nat}
    {records : List AuditRecord} (settled : Settlement) (s : ServiceState)
    (hwritten : Written W lo s.consulted events records) :
    Post (finishExecution W p records settled) s fun r s' =>
      Finished W p events settled lo s'.consulted
        (W.fails .recordExecution (s.calls .recordExecution)) s.data r s'.data ∧
      s'.consulted = s.consulted + 1 := by
  have hwritten' := hwritten.mono (Nat.le_refl _) (Nat.le_succ s.consulted)
  simp only [finishExecution, post_bind, post_now, next_ok, post_query]
  constructor
  · intro hfails
    exact ⟨.unrecorded 0 records hwritten' (.inl hfails), rfl⟩
  · intro hfails
    rw [post_onAudit]
    refine (recordExecution_spec _ _ records).mono ?_
    rintro r t (⟨rfl, hadmits, -, rfl⟩ | ⟨rfl, hnot, rfl⟩)
    · refine ⟨?_, rfl⟩
      have hnote : ∀ d : ServiceData, d.note [] = d := fun d => by simp [ServiceData.note]
      simp only [ServiceState.called, Bool.and_false, Bool.false_eq_true,
        if_false, hnote]
      exact .recorded _ records hwritten' hfails hadmits
    · exact ⟨.unrecorded _ records hwritten' (.inr hnot), rfl⟩

/-- A claim that succeeds has selected a row; one that finds none leaves the rows alone. -/
theorem claimRow_of_claim {rows rows' : List GrantRow} {proposal : ActionProposal}
    {session : Option PermissionSessionScope} {agentId : Option AgentId} {nowMs : Int}
    {claimed : Option PermissionId}
    (h : claimPermissionForProposal W.serde rows proposal session agentId nowMs =
      (.ok claimed, rows')) :
    (claimed.isSome = true ∧
        ∃ row, claimRow (.ofProposal W.serde proposal session agentId nowMs) rows = some row) ∨
      (claimed = none ∧
        claimRow (.ofProposal W.serde proposal session agentId nowMs) rows = none) := by
  unfold claimPermissionForProposal at h
  cases hrow : claimRow (.ofProposal W.serde proposal session agentId nowMs) rows with
  | none =>
      rw [hrow] at h
      cases h
      exact .inr ⟨rfl, rfl⟩
  | some row =>
      rw [hrow] at h
      simp only at h
      split at h
      · split at h
        · cases h
          exact .inl ⟨rfl, row, rfl⟩
        · cases h
      · cases h

theorem Stopped.refl (d : ServiceData) : Stopped d d :=
  ⟨d.database.sessions.grants, [], by simp, by simp⟩

/-- A claim that succeeds leaves behind what a stopped execution may leave behind, too. -/
theorem ClaimOutcome.stopped {sessionId : Option ChatSessionId} {d d' : ServiceData} {p : Prepared}
    (h : ClaimOutcome W p sessionId d d') : Stopped d d' := by
  cases h with
  | unneeded => exact .refl d
  | claimed id row rows => exact ⟨rows, _, rfl, by simp [Idle]⟩

/-- What the claim step of a request leaves behind. -/
structure ClaimStep (W : World) (p : Prepared) (sessionId : Option ChatSessionId)
    (s : ServiceState) (r : Except Failure Unit) (s' : ServiceState) : Prop where
  consulted : s'.consulted = s.consulted
  calls : ∀ m, m ≠ .claimPermissionForProposal → s'.calls m = s.calls m
  outcome : match r with
    | .ok _ => ClaimOutcome W p sessionId s.data s'.data
    | .error _ => Stopped s.data s'.data

/-- The grant that decided is claimed, or the execution stops. -/
theorem claimDeciding_spec (p : Prepared) (sessionId : Option ChatSessionId) (s : ServiceState) :
    Post (claimDeciding W p sessionId) s (ClaimStep W p sessionId s) := by
  have hcalls : ∀ m, m ≠ .claimPermissionForProposal →
      Function.update s.calls .claimPermissionForProposal
        (s.calls .claimPermissionForProposal + 1) m = s.calls m :=
    fun _ hm => Function.update_of_ne hm _ _
  unfold claimDeciding
  rw [post_ite]
  constructor
  · intro hreason
    simp only [claimPermission, post_bind, post_gets, next_ok, post_query, post_onGrants]
    constructor
    · intro _
      exact ⟨rfl, hcalls, s.data.database.sessions.grants, _, rfl, by simp [DbMethod.isWrite, Idle]⟩
    · intro _
      cases hclaim : claimPermissionForProposal W.serde s.data.database.sessions.grants p.proposal
          (permissionSession p.proposal sessionId) (permissionAgent p.proposal) p.startedAtMs with
      | mk r rows =>
          cases r with
          -- The rows could not be read, and the request stops.
          | error e =>
              exact ⟨rfl, hcalls, rows, _, rfl, by simp [DbMethod.isWrite, Idle]⟩
          | ok claimed =>
              simp only [Except.mapError, next_ok, post_bind, post_record, post_pure, post_require,
                ServiceState.called, Bool.and_false, Bool.false_eq_true, if_false]
              rcases claimRow_of_claim hclaim with ⟨hsome, row, hrow⟩ | ⟨hnone, hrow⟩
              -- A row was found and its use counted.
              · obtain ⟨id, rfl⟩ := Option.isSome_iff_exists.mp hsome
                refine ⟨fun _ => ⟨rfl, hcalls, ?_⟩, fun h => by simp at h⟩
                have houtcome := ClaimOutcome.claimed id row rows hreason hclaim hrow
                simpa [claimEffects, hrow, ServiceData.note, ServiceData.withGrants,
                  ServiceData.withDatabase] using houtcome
              -- No row was found any more, and the request stops.
              · refine ⟨fun h => by simp [hnone] at h, fun _ => ⟨rfl, hcalls, rows, [], ?_, ?_⟩⟩
                · simp [claimEffects, hrow, ServiceData.note, ServiceData.withGrants,
                    ServiceData.withDatabase]
                · simp
  · intro hreason
    exact ⟨rfl, fun _ _ => rfl, .unneeded hreason⟩

/-- How `perform` ends. -/
def Performed (W : World) (p : Prepared) (sessionId : Option ChatSessionId)
    (executor : ExecutorKind) (s : ServiceState) (r : Except Failure ExecutionReceipt)
    (s' : ServiceState) : Prop :=
  ((∃ e, r = .error e) ∧ Stopped s.data s'.data) ∨
    ∃ d events settled, Acted W p sessionId executor s.data d events settled ∧
      Finished W p events settled s.consulted s'.consulted
        (W.fails .recordExecution (s.calls .recordExecution)) d r s'.data

/-- The executor answers, and the history records its invocation. -/
theorem post_execute {executor : ExecutorKind} {authorization : ExecutionAuthorization}
    {s : ServiceState} {Q : Except Failure ExecutorReply → ServiceState → Prop}
    (h : ∀ reply s', s'.data = s.data.note [.invoked executor authorization reply] →
      s.consulted ≤ s'.consulted → s'.calls = s.calls → Q (.ok reply) s') :
    Post (execute W executor authorization) s Q := by
  rw [execute, post_bind]
  cases executor with
  | configured => exact h _ _ rfl (Nat.le_succ _) rfl
  | dryRun => exact h _ _ rfl (Nat.le_refl _) rfl

/-- The pipeline runs to its record or stops on the way. -/
theorem perform_spec (p : Prepared) (sessionId : Option ChatSessionId) (simulate : Bool)
    (s : ServiceState) :
    Post (perform W p sessionId simulate) s fun r s' =>
      Performed W p sessionId (executorFor simulate) s r s' ∧ s.consulted ≤ s'.consulted := by
  rw [perform, post_bind]
  refine post_auditRecords fun requested hrequested => ?_
  rw [next_ok]
  generalize hs₁ : s.advance p.requestedEvents.length = s₁
  have hconsulted₁ : s₁.consulted = s.consulted + p.requestedEvents.length := by rw [← hs₁]; rfl
  rw [← hconsulted₁] at hrequested
  have hdata₁ : s₁.data = s.data := by rw [← hs₁]; rfl
  have hcalls₁ : s₁.calls = s.calls := by rw [← hs₁]; rfl
  cases hauthorization : p.evaluation.authorization with
  -- Nothing is authorized: the block is recorded.
  | none =>
      simp only [post_bind]
      refine post_recordNow fun blocked hblocked => ?_
      rw [next_ok]
      have hwritten := hrequested.append hblocked (by omega) (Nat.le_add_right _ _)
      refine (finishExecution_spec p notExecuted (s₁.advance 2) hwritten).mono ?_
      rintro r s' ⟨hfinished, hconsulted⟩
      have hadvance : (s₁.advance 2).consulted = s₁.consulted + 2 := rfl
      refine ⟨.inr ⟨s.data, _, _, .blocked hauthorization, ?_⟩, by omega⟩
      rw [← hdata₁, ← hcalls₁]
      exact hfinished
  -- The claim comes before the records and the execution, and may end the request.
  | some authorization =>
      simp only [post_bind]
      refine (claimDeciding_spec p sessionId s₁).mono ?_
      rintro (e | ⟨⟩) s₂ ⟨hconsulted₂, hcalls₂, houtcome⟩
      · rw [hdata₁] at houtcome
        exact ⟨.inl ⟨⟨e, rfl⟩, houtcome⟩, by omega⟩
      rw [next_ok, post_bind]
      refine post_auditRecords fun authorized hauthorized => ?_
      rw [next_ok, post_bind]
      refine post_execute fun reply s₃ hdata₃ hconsulted₃ hcalls₃ => ?_
      have hadvance : (s₂.advance p.authorizedEvents.length).consulted =
        s₂.consulted + p.authorizedEvents.length := rfl
      rw [next_ok, post_bind]
      refine post_recordNow fun terminal hterminal => ?_
      rw [next_ok]
      rw [hconsulted₂] at hauthorized
      have hlast : Written W (s₁.consulted + p.authorizedEvents.length) (s₃.consulted + 2)
          [p.terminalEvent reply] [terminal] := hterminal.mono (by omega) (Nat.le_refl _)
      -- The records that are written at the end, in their order.
      have hwritten := (hrequested.append hauthorized (by omega) (Nat.le_add_right _ _)).append
        hlast (by omega) (by omega)
      refine
        (finishExecution_spec p (settlement proposalTexts reply) (s₃.advance 2) hwritten).mono ?_
      rintro r s' ⟨hfinished, hconsulted⟩
      have hadvance' : (s₃.advance 2).consulted = s₃.consulted + 2 := rfl
      refine ⟨.inr ⟨_, _, _, .executed authorization reply s₂.data hauthorization ?_, ?_⟩, by omega⟩
      · rw [← hdata₁]
        exact houtcome
      · have hcalls : (s₃.advance 2).calls .recordExecution = s.calls .recordExecution := by
          change s₃.calls _ = _
          rw [hcalls₃, ← hcalls₁]
          exact hcalls₂ _ (by decide)
        have hdata : (s₃.advance 2).data =
            s₂.data.note [.invoked (executorFor simulate) authorization reply] := hdata₃
        rw [← hdata, ← hcalls]
        exact hfinished

end

end Halquen.Service.Proposals
