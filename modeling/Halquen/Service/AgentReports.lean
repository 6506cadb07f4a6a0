import Halquen.Service.AgentGrants
import Halquen.Service.AgentRuns
import Halquen.Service.GrantLookup

/-!
# Reports of agent runs

A run of an agent tells the client and the agent what became of each proposal. Both lists follow the
order of the agent, and entry `i` says the same in both: that the proposal was executed or simulated
exactly if the executor launched or simulated it while this proposal was handled
(`handled_in_order`).
-/

set_option autoImplicit false

namespace Halquen.Service.AgentReports

open Halquen.Domain.Ids Halquen.Domain.Capability Halquen.Domain.Security Halquen.Domain.Agent
open Halquen.Policy.Engine Halquen.Policy.Authorization Halquen.Capabilities.Executor
open Halquen.Audit.Receipt Halquen.Protocol.Messages Halquen.Ai.Agent
open Halquen.Library.Action Halquen.Library.Action.Act
open Halquen.Service.State Halquen.Service.Proposals Halquen.Service.Handler
open Halquen.Service.Agents Halquen.Service.AgentFrame Halquen.Service.AgentGrants
open Halquen.Service.AgentRuns Halquen.Service.Durability

variable {W : World}

/-! ## One proposal -/

/-- What is told of a proposal, and what the executor did meanwhile. -/
structure Reported (index : Nat) (proposal : ActionProposal) (told : AgentProposalResult)
    (sent : AgentBrokerProposalResult) (s s' : ServiceState) : Prop where
  indices : told.index = index ∧ sent.index = index
  capabilities : told.capabilityId = proposal.action.capabilityId ∧
    sent.capabilityId = proposal.action.capabilityId
  dispositions : sent.disposition = brokerDisposition told.disposition
  executionIds : sent.executionId = told.executionId.map TypedId.asStr
  executed : told.disposition = .executed ↔
    ∃ authorization, Invoked s.data s'.data authorization (.completed .launched)
  simulated : told.disposition = .simulated ↔
    ∃ authorization, Invoked s.data s'.data authorization (.completed .simulated)
  invoked : ∀ authorization reply, Invoked s.data s'.data authorization reply →
    authorization.action = proposal.action ∧ told.executionId = some authorization.executionId

/-- Both lists have one entry for each proposal, in the order of the agent, and every entry reports
what happened while its proposal was handled. -/
structure Reports (W : World) (session : AgentSession) (index : Nat)
    (proposals : List ActionProposal)
    (results : List (AgentProposalResult × AgentBrokerProposalResult)) (s s' : ServiceState) :
    Prop where
  length : results.length = proposals.length
  entries : ∃ states : Nat → ServiceState, states 0 = s ∧ states proposals.length = s' ∧
    ∀ i proposal told sent, proposals[i]? = some proposal → results[i]? = some (told, sent) →
      handleProposal W session (index + i) proposal (states i) =
          (.ok (told, sent), states (i + 1)) ∧
        Reported (index + i) proposal told sent (states i) (states (i + 1))

theorem Reports.cons {session : AgentSession} {index : Nat} {proposal : ActionProposal}
    {proposals : List ActionProposal} {told : AgentProposalResult}
    {sent : AgentBrokerProposalResult}
    {results : List (AgentProposalResult × AgentBrokerProposalResult)} {s s₁ s' : ServiceState}
    (hhandled : handleProposal W session index proposal s = (.ok (told, sent), s₁))
    (hreported : Reported index proposal told sent s s₁)
    (h : Reports W session (index + 1) proposals results s₁ s') :
    Reports W session index (proposal :: proposals) ((told, sent) :: results) s s' := by
  obtain ⟨states, hfirst, hlast, hentries⟩ := h.entries
  refine ⟨congrArg (· + 1) h.length, fun i => i.casesOn s states, rfl, hlast, ?_⟩
  intro i proposal' told' sent' hproposal hresult
  cases i with
  | zero =>
      cases hproposal
      cases hresult
      simp only [hfirst, Nat.add_zero]
      exact ⟨hhandled, hreported⟩
  | succ i =>
      have hentry := hentries i proposal' told' sent' hproposal hresult
      rw [Nat.add_assoc, Nat.add_comm 1 i] at hentry
      exact hentry

end Halquen.Service.AgentReports
