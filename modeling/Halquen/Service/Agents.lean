import Halquen.Service.Proposals

/-!
# Runs of agents

An agent run starts a process, parses the proposals that it prints and puts each of them through
the pipeline of proposals, with the resource that it concerns classified by the daemon. The run
ends with the session of the agent finished in the tables.
-/

set_option autoImplicit false

namespace Halquen.Service.Agents

open Halquen.Domain.Ids Halquen.Domain.Capability Halquen.Domain.Security Halquen.Domain.Agent
open Halquen.Policy.Engine Halquen.Audit.Receipt Halquen.Protocol.Messages Halquen.Ai.Agent
open Halquen.Library.Action Halquen.Library.Action.Act
open Halquen.Service.State Halquen.Service.Proposals
open Halquen.Storage.Agents (listAgents)
open Halquen.Storage.Audit Halquen.Storage.Grants Halquen.Storage.Sqlite

/-- The status in which a failed run leaves its session. -/
def agentErrorStatus : AgentHostError → AgentSessionStatus
  | .timedOut => .timedOut
  | .processFailed | .io => .crashed
  | _ => .failed

/-- `agent_error`: what the client is told of a failed run. -/
def agentError (error : AgentHostError) : Failure :=
  failure
    (match error with
      | .sandboxUnavailable | .resourceLimitUnavailable => .sandboxUnavailable
      | .invalidConfiguration | .disabled | .unsupportedTransport | .unsafeOptInRequired
      | .invalidExecutable => .validation
      | .spawnFailed | .timedOut | .outputTooLarge | .malformedOutput | .processFailed
      | .io => .internal)
    "agent broker operation failed safely"

/-- What the client and the agent are told about one proposal. -/
structure Verdict where
  disposition : AgentProposalDisposition
  executionId : Option ExecutionId
  message : String

/-- What the agent is told of a proposal is what the client is told. -/
def brokerDisposition : AgentProposalDisposition → AgentBrokerDisposition
  | .executed => .executed
  | .simulated => .simulated
  | .confirmationRequired => .confirmationRequired
  | .denied => .denied
  | .failed => .failed

/-- What an allowed proposal has come to, by the status of its execution. -/
def executedDisposition (status : ExecutionStatus) : AgentProposalDisposition :=
  if status = .dryRunSucceeded then .simulated
  else if status = .succeeded then .executed
  else .failed

/-- The verdict on a proposal that could not even be judged. -/
def rejectedVerdict : Verdict := ⟨.failed, none, "daemon broker rejected an invalid proposal"⟩

/-- The verdict on a proposal, read from the answer to its execution. -/
def verdictOf : Except Failure ProtocolResponse → Verdict
  | .ok (.execution decision receipt) =>
      match decision.outcome with
      | .allow => ⟨executedDisposition receipt.status, some receipt.executionId,
          "daemon broker completed the authorized proposal"⟩
      | .confirm => ⟨.confirmationRequired, some receipt.executionId,
          "proposal requires an exact user grant; this one-shot agent session cannot self-confirm"⟩
      | .deny => ⟨.denied, some receipt.executionId, "daemon policy denied the proposal"⟩
  | .ok _ | .error _ => rejectedVerdict

/-- The verdict as the client is told it. -/
def Verdict.publicResult (verdict : Verdict) (index : Nat) (capabilityId : CapabilityId) :
    AgentProposalResult :=
  ⟨index, capabilityId, verdict.disposition, verdict.executionId, none, verdict.message⟩

/-- The verdict as the agent is told it. -/
def Verdict.brokerResult (verdict : Verdict) (index : Nat) (capabilityId : CapabilityId) :
    AgentBrokerProposalResult :=
  ⟨index, capabilityId, brokerDisposition verdict.disposition,
    verdict.executionId.map TypedId.asStr, none, verdict.message⟩

section

variable (W : World)

/-- The session ends no earlier than it has begun, and its end is audited. -/
def finishAgentSession (session : AgentSession) (status : AgentSessionStatus) :
    Operation AgentSession := do
  let nowMs ← now W
  let endedAtMs := max nowMs session.startedAtMs
  let _ ← query W .finishAgentSession
    (onSessions (Storage.Sessions.finishAgentSession session.id status endedAtMs))
  let id ← generate W .audit
  query W .appendAudit (onAudit (appendAudit
    ⟨id, endedAtMs, .agentSessionFinished session.id status⟩))
  return { session with status := status, endedAtMs := some endedAtMs }

/-- Ends the session, then the request. -/
def abort {α : Type} (session : AgentSession) (status : AgentSessionStatus) (error : Failure) :
    Operation α := do
  let _ ← finishAgentSession W session status
  throw error

/-- A step of the run whose failure ends the session. -/
def orAbort {α ε : Type} (session : AgentSession) (status : ε → AgentSessionStatus)
    (error : ε → Failure) : Except ε α → Operation α
  | .ok a => return a
  | .error e => abort W session (status e) (error e)

/-- A session whose start cannot be audited is closed again. -/
def beginAgentSession (session : AgentSession) (identity : AgentExecutionIdentity) :
    Operation Unit := do
  query W .beginAgentSession (onSessions (Storage.Sessions.beginAgentSession session))
  let id ← generate W .audit
  let recorded ← attempt (query W .appendAudit (onAudit (appendAudit
    ⟨id, session.startedAtMs, .agentSessionStarted session.id identity⟩)))
  match recorded with
  | .ok _ => return ()
  | .error _ => do
      let _ ← attempt (finishAgentSession W session .failed)
      throw internalError

/-- The proposal with the resource that it concerns, as the daemon classifies it. -/
def classified (proposal : ActionProposal) (app : EntityId)
    (classification : ResourceClassification) : ActionProposal :=
  { proposal with context := { proposal.context with
      resources := proposal.context.resources ++ [⟨.application, app.asStr, classification⟩] } }

/-- The resource of a proposal is labelled before the proposal is judged. -/
def classifyProposal (session : AgentSession) (proposal : ActionProposal) :
    Operation ActionProposal :=
  match proposal.action.arguments with
  | .none => return proposal
  | .openApp app => do
      let looked ← attempt (applicationClassification W app)
      let classification ← orAbort W session (fun _ => .failed) (fun _ => internalError) looked
      let proposal := classified proposal app classification
      if proposal.context.isValid then
        return proposal
      else
        abort W session .failed (validation "agent proposal context is invalid")

/-- One proposal of the agent. -/
def handleProposal (session : AgentSession) (index : Nat) (proposal : ActionProposal) :
    Operation (AgentProposalResult × AgentBrokerProposalResult) := do
  if 65535 < index then
    abort W session .failed (validation "agent returned too many proposals")
  else do
    let ready ← classifyProposal W session proposal
    let response ← attempt (executeProposal W ready none)
    let verdict := verdictOf response
    return (verdict.publicResult index proposal.action.capabilityId,
      verdict.brokerResult index proposal.action.capabilityId)

/-- The proposals are handled one after another, in the order in which the agent made them. -/
def handleProposals (session : AgentSession) (index : Nat) :
    List ActionProposal → Operation (List (AgentProposalResult × AgentBrokerProposalResult))
  | [] => return []
  | proposal :: proposals => do
      let result ← handleProposal W session index proposal
      let results ← handleProposals session (index + 1) proposals
      return result :: results

/-- The session of a run that is about to begin. -/
def startingSession (identity : AgentExecutionIdentity) (daemonSessionId : DaemonSessionId)
    (startedAtMs : Int) : AgentSession where
  id := identity.sessionId
  agentId := identity.agentId
  instanceId := identity.instanceId
  daemonSessionId := daemonSessionId
  status := .running
  startedAtMs := startedAtMs
  endedAtMs := none

/-- The configuration of an agent, if it is among the first 100. -/
def configuredAgent (agentId : AgentId) : Operation AgentConfiguration := do
  let agents ← read W .listAgents fun d => listAgents W.arguments d.agents 100
  orThrow (failure .notFound "agent is not configured")
    (agents.find? fun agent => agent.id == agentId)

/-- Starts the process and parses what it prints. -/
def invokeAgent (configuration : AgentConfiguration) (identity : AgentExecutionIdentity)
    (session : AgentSession) (input : String) : Operation AgentInvocationResult := do
  let registry ← gets fun s => s.data.registry
  let started ← consult fun n => W.startAgent n configuration identity input
    (registry.capabilities.map .ofDescriptor)
  orAbort W session agentErrorStatus agentError started
  let printed ← consult W.agentOutput
  orAbort W session agentErrorStatus agentError
    (printed.bind fun bytes => parseAgentOutput W.decodeOutput bytes identity)

/-- `run_agent`: the session is opened, the agent runs, its proposals are judged and the session is
closed. -/
def runAgent (request : AgentRunRequest) : Operation ProtocolResponse := do
  require (!isBlank request.input && decide (request.input.utf8ByteSize ≤ 64 * 1024))
    (validation "agent input must be between 1 and 65536 bytes")
  let configuration ← configuredAgent W request.agentId
  let startedAtMs ← now W
  let instanceId ← generate W .agentInstance
  let sessionId ← generate W .agentSession
  let identity : AgentExecutionIdentity := ⟨configuration.id, instanceId, sessionId⟩
  let daemonSessionId ← gets fun s => s.data.daemonSessionId
  let session := startingSession identity daemonSessionId startedAtMs
  beginAgentSession W session identity
  let invocation ← invokeAgent W configuration identity session request.input
  let results ← handleProposals W session 0 invocation.proposals
  let completion ← consult fun n => W.completeAgent n (results.map Prod.snd)
  let stderrBytes ← orAbort W session agentErrorStatus agentError completion
  let finished ← finishAgentSession W session .completed
  return .agentRun
    ⟨finished, invocation.message, results.map Prod.fst, min stderrBytes (2 ^ 32 - 1)⟩

end

end Halquen.Service.Agents
