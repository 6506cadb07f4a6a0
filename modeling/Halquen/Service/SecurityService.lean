import Halquen.Service.State

/-!
# Requests on the security settings

The user's requests on the profile, permission grants, resource labels and agent configurations.
-/

set_option autoImplicit false

namespace Halquen.Service.SecurityService

open Halquen.Domain.Ids Halquen.Domain.Capability Halquen.Domain.Security Halquen.Domain.Agent
open Halquen.Protocol.Messages
open Halquen.Library.Action Halquen.Library.Action.Act Halquen.Library.Sql
open Halquen.Service.State
open Halquen.Storage.Agents (listAgents)
open Halquen.Storage.Grants Halquen.Storage.Labels Halquen.Storage.Sqlite

/-- `ORDER BY started_at_ms DESC, id DESC LIMIT ?`. -/
def listAgentSessions (sessions : List AgentSession) (limit : Nat) : List AgentSession :=
  (orderBy (fun session : AgentSession => toLex (session.startedAtMs, session.id.asStr))
    sessions).reverse.take (min limit 200)

/-- Session, expiry and use limit of a grant. -/
abbrev GrantLimits := Option PermissionSessionScope × Option Int × Option UInt32

section

variable (W : World)

/-- `update_security_profile`. -/
def updateSecurityProfile (profile : SecurityProfile) : Operation ProtocolResponse := do
  let nowMs ← now W
  query W .updateSecurityProfile (Storage.Sqlite.updateSecurityProfile profile nowMs)
  return .securityProfileUpdated profile

/-- A grant for an agent needs a configured agent. -/
def requireAgent : Option AgentId → Operation Unit
  | some agentId => do
      let agents ← read W .listAgents fun d => listAgents W.arguments d.agents 100
      require (agents.any fun agent => agent.id == agentId)
        (validation "permission agent is not configured")
  | none => return ()

/-- A grant for a session needs a session that is current. -/
def requireSession (agentId : Option AgentId) : PermissionSessionScope → Operation Unit
  | .agent sessionId => do
      let agentId ← orThrow (validation "agent-session permission requires an agent") agentId
      let sessions ← read W .listAgentSessions fun d =>
        .ok (listAgentSessions d.sessions.agentSessions 200)
      require (sessions.any fun candidate => candidate.id == sessionId
          && candidate.agentId == agentId && candidate.status == .running)
        (validation "agent session is not active for this agent")
  | .daemon id => do
      let current ← gets fun s => s.data.daemonSessionId
      require (id == current) (validation "daemon session is not current")
  | .chat _ => return ()

/-- What the lifetime of a grant means: a session, a time or a number of uses. -/
def grantLimits (input : PermissionGrantUpsert) : Operation GrantLimits :=
  match input.lifetime with
  | .once => return (none, none, some 1)
  | .session => do
      let session ← orThrow (validation "session permission requires a session") input.session
      requireSession W input.agentId session
      return (some session, none, none)
  | .until => do
      let expiry ← orThrow (validation "until permission requires an expiration") input.expiresAtMs
      return (none, some expiry, none)
  | .always => return (none, none, none)

/-- The grant of a request. -/
def grantOf (input : PermissionGrantUpsert) (id : PermissionId) (limits : GrantLimits)
    (nowMs : Int) : PermissionGrant where
  id := id
  effect := input.effect
  lifetime := input.lifetime
  scope := ⟨input.capabilityId, input.arguments, input.resources, input.destination⟩
  session := limits.1
  agentId := input.agentId
  grantedBy := .userExplicit
  grantedAtMs := nowMs
  expiresAtMs := limits.2.1
  revokedAtMs := none
  useLimit := limits.2.2
  useCount := 0

/-- `upsert_permission_grant`: the grant must fit its capability and name an agent that exists. -/
def upsertPermissionGrant (input : PermissionGrantUpsert) : Operation ProtocolResponse := do
  let registry ← gets fun s => s.data.registry
  let descriptor ← orThrow (validation "permission capability is not registered")
    (registry.get input.capabilityId)
  require (input.arguments.kind == descriptor.arguments && decide (input.resources.length ≤ 16))
    (validation "permission scope does not match the capability")
  requireAgent W input.agentId
  let nowMs ← now W
  require (input.expiresAtMs.all fun expiry => decide (nowMs < expiry))
    (validation "permission expiration must be in the future")
  let limits ← grantLimits W input
  let fresh ← generate W .permission
  let grant := grantOf input (input.id.getD fresh) limits nowMs
  query W .upsertPermissionGrant (saveGrant W.serde grant)
  return .permissionSaved grant

/-- `revoke_permission_grant`. -/
def revokePermissionGrant (id : PermissionId) : Operation ProtocolResponse := do
  let nowMs ← now W
  let revoked ← query W .revokePermission <| onGrants fun rows =>
    (.ok (revokePermission rows id nowMs).1, (revokePermission rows id nowMs).2)
  return .permissionRevoked revoked

/-- The label that a request asks for. -/
def labelOf (input : ResourceLabelUpsert) (id : ResourceLabelId) (nowMs : Int) :
    ResourceLabel where
  id := id
  name := input.name
  resourceKind := input.resourceKind
  matchKind := input.matchKind
  pattern := input.pattern
  classification := input.classification
  dataClassification := input.dataClassification
  createdAtMs := nowMs
  updatedAtMs := nowMs

/-- `upsert_resource_label`. -/
def upsertResourceLabel (input : ResourceLabelUpsert) : Operation ProtocolResponse := do
  let nowMs ← now W
  let fresh ← generate W .resourceLabel
  let label := labelOf input (input.id.getD fresh) nowMs
  mapError (fun _ => validation "resource label is invalid or conflicts with an exact label")
    (call W .upsertResourceLabel (saveLabel label))
  return .resourceLabelSaved label

/-- `remove_resource_label`. -/
def removeResourceLabel (id : ResourceLabelId) : Operation ProtocolResponse := do
  let removed ← query W .removeResourceLabel (deleteLabel id)
  return .resourceLabelRemoved removed

/-- Only an agent that is started from the command line has an executable. -/
def inspectAgent (input : AgentConfigurationUpsert) : Operation (Option ExecutableIdentity) :=
  if input.transport = .cli then do
    let inspected ← consult fun n =>
      W.inspectExecutable n input.executable input.ownership input.sha256Hex
    let identity ← orThrow (validation "agent executable identity is not trusted") inspected
    return some identity
  else
    return none

/-- `upsert_agent`: the executable is inspected by the daemon, not described by the client. -/
def upsertAgent (input : AgentConfigurationUpsert) : Operation ProtocolResponse := do
  let identity ← inspectAgent W input
  let nowMs ← now W
  let fresh ← generate W .agent
  let agent := input.intoConfiguration nowMs identity fresh
  mapError (fun _ => validation "agent configuration is invalid")
    (call W .upsertAgent (saveAgent W.arguments agent))
  return .agentSaved agent

/-- `remove_agent`. -/
def removeAgent (id : AgentId) : Operation ProtocolResponse := do
  let removed ← query W .removeAgent (deleteAgent id)
  return .agentRemoved removed

end

end Halquen.Service.SecurityService
