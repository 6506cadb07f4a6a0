import Halquen.Domain.Agent
import Halquen.Library.Listing

/-!
# Output of an agent process

An agent process receives a view of the registered capabilities and prints one line. The line is
parsed into a message and a list of proposals; the context of every proposal is that of the agent
that the daemon started, whatever the line says (`context_of_parseAgentOutput`). The JSON decoder
is a parameter.
-/

set_option autoImplicit false

namespace Halquen.Ai.Agent

open Halquen.Domain.Ids Halquen.Domain.Capability Halquen.Domain.Security Halquen.Domain.Agent
open Halquen.Library.Listing

/-- The version that an agent's output must state. -/
def agentProtocolVersion : Nat := 1

/-- The most proposals that one run may make. -/
def maxAgentProposals : Nat := 16

/-- The longest message of an agent, in bytes. -/
def maxAgentMessageBytes : Nat := 65536

/-- What an agent is told of a capability. -/
structure AgentCapabilityView where
  id : CapabilityId
  version : UInt32
  description : String
  risk : RiskClass
  arguments : ActionArgumentKind
  deriving DecidableEq

/-- The view leaves out what is for the policy alone. -/
def AgentCapabilityView.ofDescriptor (descriptor : CapabilityDescriptor) : AgentCapabilityView where
  id := descriptor.id
  version := descriptor.version
  description := descriptor.description
  risk := descriptor.risk
  arguments := descriptor.arguments

/-- What became of a proposal, as the agent is told. -/
inductive AgentBrokerDisposition where
  | executed | simulated | confirmationRequired | denied | failed
  deriving DecidableEq, Repr

/-- One proposal with what became of it, in the reply to the agent. -/
structure AgentBrokerProposalResult where
  index : Nat
  capabilityId : CapabilityId
  disposition : AgentBrokerDisposition
  executionId : Option String
  confirmationId : Option String
  message : String
  deriving DecidableEq

/-- What an accepted output of an agent holds. -/
structure AgentInvocationResult where
  message : String
  proposals : List ActionProposal
  deriving DecidableEq

/-- Why a run of an agent fails. -/
inductive AgentHostError where
  | invalidConfiguration | disabled | unsupportedTransport | sandboxUnavailable
  | resourceLimitUnavailable | unsafeOptInRequired | invalidExecutable | spawnFailed | timedOut
  | outputTooLarge | malformedOutput | processFailed | io
  deriving DecidableEq, Repr

/-- A proposal as the agent writes it. -/
structure AgentWireProposal where
  action : ActionRequest
  explanation : String
  deriving DecidableEq

/-- The output of an agent, decoded and not yet checked. -/
structure AgentWireOutput where
  version : Nat
  kind : String
  message : String
  proposals : List AgentWireProposal
  deriving DecidableEq

/-- JSON decoder of the line that an agent prints. -/
abbrev WireDecoder := List UInt8 → Option AgentWireOutput

/-- Bounds on a decoded line. -/
def AgentWireOutput.accepted (output : AgentWireOutput) : Bool :=
  output.version == agentProtocolVersion && output.kind == "proposals"
    && decide (output.message.utf8ByteSize ≤ maxAgentMessageBytes)
    && decide (output.proposals.length ≤ maxAgentProposals)
    && output.proposals.all fun proposal => decide (proposal.explanation.utf8ByteSize ≤ 2048)

/-- Proposal of an agent, in the context of that agent. -/
def agentProposal (identity : AgentExecutionIdentity) (proposal : AgentWireProposal) :
    Except AgentHostError ActionProposal :=
  (ActionProposal.new proposal.action (.ofAgent identity)).mapError fun _ => .malformedOutput

/-- `parse_agent_output`: the bytes must decode, the output must be acceptable, and every proposal
must be valid. -/
def parseAgentOutput (decode : WireDecoder) (bytes : List UInt8)
    (identity : AgentExecutionIdentity) : Except AgentHostError AgentInvocationResult :=
  match decode bytes with
  | none => .error .malformedOutput
  | some output =>
      if output.accepted then do
        let proposals ← output.proposals.mapM (agentProposal identity)
        return ⟨output.message, proposals⟩
      else
        .error .malformedOutput

theorem context_of_agentProposal {identity : AgentExecutionIdentity} {wire : AgentWireProposal}
    {proposal : ActionProposal} (h : agentProposal identity wire = .ok proposal) :
    proposal.context = .ofAgent identity := by
  unfold agentProposal ActionProposal.new at h
  cases hvalid : (ActionContext.ofAgent identity).validate with
  | error e =>
      rw [hvalid] at h
      cases h
  | ok u =>
      rw [hvalid] at h
      cases h
      rfl

theorem error_of_agentProposal {identity : AgentExecutionIdentity} {wire : AgentWireProposal}
    {e : AgentHostError} (h : agentProposal identity wire = .error e) : e = .malformedOutput := by
  unfold agentProposal at h
  cases hnew : ActionProposal.new wire.action (.ofAgent identity) with
  | error e' =>
      rw [hnew] at h
      cases h
      rfl
  | ok proposal =>
      rw [hnew] at h
      cases h

/-- Nothing that an agent prints decides the context of its proposals. -/
theorem context_of_parseAgentOutput {decode : WireDecoder} {bytes : List UInt8}
    {identity : AgentExecutionIdentity} {result : AgentInvocationResult}
    (h : parseAgentOutput decode bytes identity = .ok result) :
    ∀ proposal ∈ result.proposals, proposal.context = .ofAgent identity := by
  unfold parseAgentOutput at h
  split at h
  · cases h
  · rename_i output _
    split at h
    · cases hproposals : output.proposals.mapM (agentProposal identity) with
      | error e =>
          rw [hproposals] at h
          cases h
      | ok proposals =>
          rw [hproposals] at h
          cases h
          intro proposal hmem
          have hall := (mapM_eq_ok_iff _ _ _).mp hproposals
          obtain ⟨wire, -, hwire⟩ := exists_of_forall₂_right hall hmem
          exact context_of_agentProposal hwire
    · cases h

/-- A line is refused as malformed, or not at all. -/
theorem error_of_parseAgentOutput {decode : WireDecoder} {bytes : List UInt8}
    {identity : AgentExecutionIdentity} {e : AgentHostError}
    (h : parseAgentOutput decode bytes identity = .error e) : e = .malformedOutput := by
  unfold parseAgentOutput at h
  split at h
  · cases h
    rfl
  · rename_i output _
    split at h
    · cases hproposals : output.proposals.mapM (agentProposal identity) with
      | ok proposals =>
          rw [hproposals] at h
          cases h
      | error e' =>
          rw [hproposals] at h
          cases h
          obtain ⟨wire, -, hwire⟩ := exists_of_mapM_error hproposals
          exact error_of_agentProposal hwire
    · cases h
      rfl

end Halquen.Ai.Agent
