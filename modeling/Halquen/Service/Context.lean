import Halquen.Policy.Specification

/-!
# Policy context of a proposal

The session and the agent under which the daemon evaluates a proposal, and the policy context built
from them. An agent's identity in the proposal takes precedence over a chat session.
-/

set_option autoImplicit false

namespace Halquen.Service.Context

open Halquen.Domain.Ids Halquen.Domain.Security Halquen.Policy.Engine
open Halquen.Policy.Specification

/-- Session for which grants are looked up and claimed. -/
def permissionSession (proposal : ActionProposal) (sessionId : Option ChatSessionId) :
    Option PermissionSessionScope :=
  match proposal.context.agent with
  | some identity => some (.agent identity.sessionId)
  | none => sessionId.map .chat

/-- Agent for which grants are looked up and claimed. -/
def permissionAgent (proposal : ActionProposal) : Option AgentId :=
  proposal.context.agent.map AgentExecutionIdentity.agentId

/-- The context before any grant is added. -/
def contextFor (profile : SecurityProfile) (proposal : ActionProposal)
    (sessionId : Option ChatSessionId) (timestamp : Int) : PolicyContext :=
  (((PolicyContext.default.setActionContext proposal.context).setProfile profile).setNowMs
    timestamp).setSessionId sessionId

section

variable (profile : SecurityProfile) (proposal : ActionProposal)
  (sessionId : Option ChatSessionId) (timestamp : Int)

/-- The setters together fix every field of the context. -/
theorem contextFor_eq : contextFor profile proposal sessionId timestamp = {
    grantedScopes := ∅
    actionContext := some proposal.context
    permissionGrants := []
    profile := profile
    nowMs := timestamp
    session := permissionSession proposal sessionId
    agentId := permissionAgent proposal } := by
  cases h : proposal.context.agent <;>
    simp [contextFor, permissionSession, permissionAgent, h, PolicyContext.setActionContext,
      PolicyContext.setProfile, PolicyContext.setNowMs, PolicyContext.setSessionId,
      PolicyContext.default]

/-- Adding one grant to the context without grants. -/
theorem contextFor_addPermissionGrant (grant : PermissionGrant) :
    (contextFor profile proposal sessionId timestamp).addPermissionGrant grant =
      withGrants (contextFor profile proposal sessionId timestamp) [grant] := by
  simp [PolicyContext.addPermissionGrant, withGrants, contextFor_eq]

theorem contextFor_withGrants_nil :
    withGrants (contextFor profile proposal sessionId timestamp) [] =
      contextFor profile proposal sessionId timestamp := by
  simp [withGrants, contextFor_eq]

end

end Halquen.Service.Context
