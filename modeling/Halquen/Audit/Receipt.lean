import Halquen.Domain.Agent
import Halquen.Policy.Engine

/-!
# Audit events and execution receipts

Every event of the audit trail has a kind and a subject. The subject of an event about an execution
is the execution; events about agent sessions and memory have subjects of their own, and a policy
evaluation made outside an execution has the capability as its subject.
-/

set_option autoImplicit false

namespace Halquen.Audit.Receipt

open Halquen.Domain.Ids Halquen.Domain.Security Halquen.Domain.Agent Halquen.Policy.Engine

/-- How an execution ended. -/
inductive ExecutionStatus where
  | dryRunSucceeded | succeeded | failed | timedOut | notExecuted
  deriving DecidableEq, Repr

/-- What an execution did, in terms that are safe to store. -/
inductive SafeResultCode where
  | simulated | launched
  deriving DecidableEq, Repr

/-- The durable record of one execution. -/
structure ExecutionReceipt where
  executionId : ExecutionId
  capabilityId : CapabilityId
  capabilityVersion : Nat
  startedAtMs : Int
  finishedAtMs : Int
  policyDecision : PolicyDecision
  status : ExecutionStatus
  reversible : Bool
  resultCode : Option SafeResultCode
  errorCode : Option String
  sanitizedError : Option String
  compensationReference : Option String
  deriving DecidableEq

/-- What the audit log records, without texts of the user. -/
inductive AuditEvent where
  | proposalCreated (executionId : ExecutionId) (proposalId : ProposalId)
      (capabilityId : CapabilityId) (context : ActionContextSummary)
  | actionRequested (executionId : ExecutionId) (capabilityId : CapabilityId)
      (capabilityVersion : Nat)
  | policyEvaluated (executionId : Option ExecutionId) (capabilityId : CapabilityId)
      (decision : PolicyDecision)
  | confirmationRequired (executionId : ExecutionId) (capabilityId : CapabilityId)
  | confirmationReceived (executionId : ExecutionId) (capabilityId : CapabilityId)
      (accepted : Bool) (agent : Option AgentExecutionIdentity)
  | authorizationCreated (executionId : ExecutionId) (capabilityId : CapabilityId)
      (agent : Option AgentExecutionIdentity)
  | actionDenied (executionId : ExecutionId) (capabilityId : CapabilityId)
  | executionStarted (executionId : ExecutionId) (capabilityId : CapabilityId)
  | executionCompleted (executionId : ExecutionId) (capabilityId : CapabilityId)
      (resultCode : Option SafeResultCode)
  | executionFailed (executionId : ExecutionId) (capabilityId : CapabilityId)
      (errorCode : String)
  | executionTimedOut (executionId : ExecutionId) (capabilityId : CapabilityId)
      (errorCode : String)
  | agentSessionStarted (sessionId : AgentSessionId) (agent : AgentExecutionIdentity)
  | agentSessionFinished (sessionId : AgentSessionId) (status : AgentSessionStatus)
  | memoryRevision (memoryId : MemoryId) (revisionId : MemoryRevisionId)
  deriving DecidableEq

/-- One row of the audit log. -/
structure AuditRecord where
  id : AuditId
  createdAtMs : Int
  event : AuditEvent
  deriving DecidableEq

/-- Kind of an event, as the events table spells it. -/
def AuditEvent.kind : AuditEvent → String
  | .proposalCreated .. => "proposal_created"
  | .actionRequested .. => "action_requested"
  | .policyEvaluated .. => "policy_evaluated"
  | .confirmationRequired .. => "confirmation_required"
  | .confirmationReceived .. => "confirmation_received"
  | .authorizationCreated .. => "authorization_created"
  | .actionDenied .. => "action_denied"
  | .executionStarted .. => "execution_started"
  | .executionCompleted .. => "execution_completed"
  | .executionFailed .. => "execution_failed"
  | .executionTimedOut .. => "execution_timed_out"
  | .agentSessionStarted .. => "agent_session_started"
  | .agentSessionFinished .. => "agent_session_finished"
  | .memoryRevision .. => "memory_revision"

/-- Subject of an event, as the events table stores it. -/
def AuditEvent.subject : AuditEvent → String
  | .proposalCreated executionId .. => executionId.asStr
  | .actionRequested executionId .. => executionId.asStr
  | .policyEvaluated executionId capabilityId _ =>
      executionId.elim capabilityId.asStr TypedId.asStr
  | .confirmationRequired executionId _ => executionId.asStr
  | .confirmationReceived executionId .. => executionId.asStr
  | .authorizationCreated executionId .. => executionId.asStr
  | .actionDenied executionId _ => executionId.asStr
  | .executionStarted executionId _ => executionId.asStr
  | .executionCompleted executionId .. => executionId.asStr
  | .executionFailed executionId .. => executionId.asStr
  | .executionTimedOut executionId .. => executionId.asStr
  | .agentSessionStarted sessionId _ => sessionId.asStr
  | .agentSessionFinished sessionId _ => sessionId.asStr
  | .memoryRevision memoryId _ => memoryId.asStr

end Halquen.Audit.Receipt
