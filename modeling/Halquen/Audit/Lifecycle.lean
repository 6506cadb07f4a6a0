import Halquen.Audit.Receipt

/-!
# Lifecycle of executions

What the audit trail says of one execution, from the proposal to its end: the sequences of events
that an execution may leave, each with the status of its receipt and the number of times that an
executor was invoked (`Trail`). An event that is about no execution is foreign to all of them.
-/

set_option autoImplicit false

namespace Halquen.Audit.Lifecycle

open Halquen.Domain.Ids Halquen.Domain.Security Halquen.Domain.Agent Halquen.Policy.Engine
open Halquen.Audit.Receipt

/-! ## Parts of a trail -/

/-- The proposal, the request and the policy's decision. -/
inductive Opening (x : ExecutionId) (c : CapabilityId) : List AuditEvent → Prop where
  | intro (proposalId : ProposalId) (context : ActionContextSummary) (version : Nat)
      (decision : PolicyDecision) :
      Opening x c [.proposalCreated x proposalId c context, .actionRequested x c version,
        .policyEvaluated (some x) c decision]

/-- The authorization and the start. -/
inductive Start (x : ExecutionId) (c : CapabilityId) : List AuditEvent → Prop where
  | intro (agent : Option AgentExecutionIdentity) :
      Start x c [.authorizationCreated x c agent, .executionStarted x c]

/-- Status of an execution that was completed with this result. -/
def completedStatus : SafeResultCode → ExecutionStatus
  | .simulated => .dryRunSucceeded
  | .launched => .succeeded

/-- The last event of an execution that was started, and its status. -/
inductive Ends (x : ExecutionId) (c : CapabilityId) : AuditEvent → ExecutionStatus → Prop where
  | completed (code : SafeResultCode) :
      Ends x c (.executionCompleted x c (some code)) (completedStatus code)
  | failed (errorCode : String) : Ends x c (.executionFailed x c errorCode) .failed
  | timedOut (errorCode : String) : Ends x c (.executionTimedOut x c errorCode) .timedOut

/-- Events of an execution, the status of its receipt and the number of invocations. -/
inductive Trail (x : ExecutionId) : List AuditEvent → ExecutionStatus → Nat → Prop where
  | executed {c : CapabilityId} {opening start : List AuditEvent} {terminal : AuditEvent}
      {status : ExecutionStatus} (hopening : Opening x c opening) (hstart : Start x c start)
      (hends : Ends x c terminal status) : Trail x (opening ++ start ++ [terminal]) status 1
  | awaiting {c : CapabilityId} {opening : List AuditEvent} (hopening : Opening x c opening) :
      Trail x (opening ++ [.confirmationRequired x c]) .notExecuted 0
  | refused {c : CapabilityId} {opening : List AuditEvent} (hopening : Opening x c opening)
      (agent : Option AgentExecutionIdentity) :
      Trail x (opening ++ [.confirmationRequired x c, .confirmationReceived x c false agent])
        .notExecuted 0
  | denied {c : CapabilityId} {opening : List AuditEvent} (hopening : Opening x c opening) :
      Trail x (opening ++ [.actionDenied x c]) .notExecuted 0
  | confirmed {c : CapabilityId} {opening start : List AuditEvent} {terminal : AuditEvent}
      {status : ExecutionStatus} (hopening : Opening x c opening)
      (agent : Option AgentExecutionIdentity) (hstart : Start x c start)
      (hends : Ends x c terminal status) :
      Trail x (opening ++ .confirmationReceived x c true agent :: start ++ [terminal]) status 1

/-- The trail of an execution of this capability that waits for its confirmation. -/
def Awaiting (x : ExecutionId) (c : CapabilityId) (events : List AuditEvent) : Prop :=
  ∃ opening, Opening x c opening ∧ events = opening ++ [.confirmationRequired x c]

/-! ## Subjects -/

/-- An event that is not about an execution. -/
def Foreign (event : AuditEvent) : Prop :=
  ∀ stamp, event.subject ≠ (TypedId.generate .execution stamp).asStr

theorem foreign_policyEvaluated (c : CapabilityId) (decision : PolicyDecision) :
    Foreign (.policyEvaluated none c decision) :=
  capabilityId_ne_generate c .execution

theorem foreign_agentSessionStarted (stamp : Stamp) (agent : AgentExecutionIdentity) :
    Foreign (.agentSessionStarted (.generate .agentSession stamp) agent) :=
  TypedId.asStr_generate_ne (by decide) stamp

theorem foreign_agentSessionFinished (stamp : Stamp) (status : AgentSessionStatus) :
    Foreign (.agentSessionFinished (.generate .agentSession stamp) status) :=
  TypedId.asStr_generate_ne (by decide) stamp

theorem foreign_memoryRevision (stamp : Stamp) (revisionId : MemoryRevisionId) :
    Foreign (.memoryRevision (.generate .memory stamp) revisionId) :=
  TypedId.asStr_generate_ne (by decide) stamp

theorem Opening.subject {x : ExecutionId} {c : CapabilityId} {events : List AuditEvent}
    (h : Opening x c events) : ∀ event ∈ events, event.subject = x.asStr := by
  cases h
  simp [AuditEvent.subject]

theorem Start.subject {x : ExecutionId} {c : CapabilityId} {events : List AuditEvent}
    (h : Start x c events) : ∀ event ∈ events, event.subject = x.asStr := by
  cases h
  simp [AuditEvent.subject]

theorem Ends.subject {x : ExecutionId} {c : CapabilityId} {event : AuditEvent}
    {status : ExecutionStatus} (h : Ends x c event status) : event.subject = x.asStr := by
  cases h <;> rfl

/-- Every event of a trail is about its execution. -/
theorem Trail.subject {x : ExecutionId} {events : List AuditEvent} {status : ExecutionStatus}
    {n : Nat} (h : Trail x events status n) : ∀ event ∈ events, event.subject = x.asStr := by
  intro event hevent
  cases h with
  | executed hopening hstart hends =>
      simp only [List.mem_append, List.mem_singleton] at hevent
      rcases hevent with (hevent | hevent) | rfl
      · exact hopening.subject event hevent
      · exact hstart.subject event hevent
      · exact hends.subject
  | awaiting hopening | denied hopening =>
      simp only [List.mem_append, List.mem_singleton] at hevent
      rcases hevent with hevent | rfl
      · exact hopening.subject event hevent
      · rfl
  | refused hopening agent =>
      simp only [List.mem_append, List.mem_cons, List.not_mem_nil, or_false] at hevent
      rcases hevent with hevent | rfl | rfl
      · exact hopening.subject event hevent
      · rfl
      · rfl
  | confirmed hopening agent hstart hends =>
      simp only [List.mem_append, List.mem_cons, List.not_mem_nil, or_false] at hevent
      rcases hevent with (hevent | rfl | hevent) | rfl
      · exact hopening.subject event hevent
      · rfl
      · exact hstart.subject event hevent
      · exact hends.subject

/-! ## Invocations -/

/-- An executor is invoked once for a trail with a start, and never for another. -/
theorem Trail.invocations_eq {x : ExecutionId} {events : List AuditEvent}
    {status : ExecutionStatus} {n : Nat} (h : Trail x events status n) :
    n = (events.map AuditEvent.kind).count "execution_started" := by
  cases h with
  | executed hopening hstart hends =>
      cases hopening; cases hstart; cases hends <;> rfl
  | awaiting hopening | refused hopening agent | denied hopening =>
      cases hopening; rfl
  | confirmed hopening agent hstart hends =>
      cases hopening; cases hstart; cases hends <;> rfl

end Halquen.Audit.Lifecycle
