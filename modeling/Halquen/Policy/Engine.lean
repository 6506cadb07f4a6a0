import Halquen.Domain.Security
import Mathlib.Data.Finset.Sort

/-!
# Policy engine

`PolicyEngine.decide` evaluates a proposal of a capability in a context of granted scopes,
permission grants, profile, time, session and agent. It is an ordered list of denials followed by
the baseline, where an exact-scope Allow grant may lift a Confirm. `authorizeProposal` turns an
Allow into an authorization; `authorizeConfirmedProposalOnce` does so for a Confirm as well.

What the denials of the list mean without reference to their order is stated in
`Policy.Specification`.
-/

set_option autoImplicit false

namespace Halquen.Policy.Engine

open Halquen.Domain.Ids Halquen.Domain.Capability Halquen.Domain.Security
open Halquen.Library.Rules

/-! ## Decisions -/

/-- What the policy says of a proposal. -/
inductive PolicyOutcome where
  | allow | confirm | deny
  deriving DecidableEq, Repr

/-- How strongly the user is warned before confirming. -/
inductive ConfirmationLevel where
  | standard | sensitive | destructive
  deriving DecidableEq, Repr

/-- Why a decision was taken, in terms that are safe to show and to store. -/
inductive PolicyReason where
  | readOnlyBaseline
  | localSideEffectBaseline
  | reversibleLocalWriteBaseline
  | reversibleLocalWriteRequiresConfirmation
  | externalSideEffectRequiresConfirmation
  | destructiveRequiresConfirmation
  | privilegedDenied
  | unknownRiskDenied
  | capabilityRequiresConfirmation
  | missingScope (scope : ScopeRequirement)
  | invalidDescriptor
  | invalidActionContract
  | userConfirmedOnce
  | invalidProvenance
  | immutableSecretExfiltrationDeny
  | immutableProductionDestructiveDeny
  | immutableSystemCriticalDeny
  | untrustedAuthorityMutationDenied
  | sensitiveResourceRequiresConfirmation
  | productionResourceRequiresConfirmation
  | strictProfileRequiresConfirmation
  | persistentExactAllow
  | persistentExactDeny
  | agentSideEffectRequiresConfirmation
  deriving DecidableEq

/-- The decision on one proposal, with the rule that took it. -/
structure PolicyDecision where
  outcome : PolicyOutcome
  reason : PolicyReason
  ruleId : String
  hardDeny : Bool
  confirmationLevel : Option ConfirmationLevel
  expiresAtMs : Option Int
  deriving DecidableEq

/-- Only an allowed proposal may be executed. -/
def PolicyDecision.isAllowed (d : PolicyDecision) : Bool := d.outcome == .allow

/-- Permission to execute one action. Only the policy engine builds one. -/
structure ExecutionAuthorization where
  executionId : ExecutionId
  descriptor : CapabilityDescriptor
  action : ActionRequest
  grantedScopes : List ScopeRequirement
  deriving DecidableEq

/-- A decision with the authorization that comes with it, if any does. -/
structure PolicyEvaluation where
  decision : PolicyDecision
  authorization : Option ExecutionAuthorization
  deriving DecidableEq

/-- An evaluation that authorizes an execution. -/
def PolicyEvaluation.allowed (decision : PolicyDecision)
    (authorization : ExecutionAuthorization) : PolicyEvaluation :=
  ⟨decision, some authorization⟩

/-- An evaluation that authorizes nothing. -/
def PolicyEvaluation.blocked (decision : PolicyDecision) : PolicyEvaluation := ⟨decision, none⟩

/-- A refusal. A hard one cannot be lifted by a confirmation. -/
def denial (reason : PolicyReason) (ruleId : String) (hardDeny : Bool) : PolicyDecision :=
  ⟨.deny, reason, ruleId, hardDeny, none, none⟩

/-- `allow`: a decision that needs no confirmation. -/
def allow (reason : PolicyReason) (ruleId : String) : PolicyDecision :=
  ⟨.allow, reason, ruleId, false, none, none⟩

/-- `confirmation`: a decision that waits for the user. -/
def confirmation (reason : PolicyReason) (ruleId : String) (level : ConfirmationLevel) :
    PolicyDecision :=
  ⟨.confirm, reason, ruleId, false, some level, none⟩

/-! ## Context -/

/-- What is known when a proposal is judged: scopes, grants, profile, time and session. -/
structure PolicyContext where
  grantedScopes : Finset ScopeRequirement
  actionContext : Option ActionContext
  permissionGrants : List PermissionGrant
  profile : SecurityProfile
  nowMs : Int
  session : Option PermissionSessionScope
  agentId : Option AgentId

/-- The context in which nothing is granted. -/
def PolicyContext.default : PolicyContext where
  grantedScopes := ∅
  actionContext := none
  permissionGrants := []
  profile := .balanced
  nowMs := 0
  session := none
  agentId := none

/-- `PolicyContext::grant`: one more scope is granted. -/
def PolicyContext.grant (context : PolicyContext) (scope : ScopeRequirement) : PolicyContext :=
  { context with grantedScopes := insert scope context.grantedScopes }

/-- An agent's identity in the action context fixes the session and the agent. -/
def PolicyContext.setActionContext (context : PolicyContext) (action : ActionContext) :
    PolicyContext :=
  match action.agent with
  | some identity =>
      { context with
        session := some (.agent identity.sessionId)
        agentId := some identity.agentId
        actionContext := some action }
  | none => { context with actionContext := some action }

/-- `PolicyContext::add_permission_grant`: one more grant is known, after those known before. -/
def PolicyContext.addPermissionGrant (context : PolicyContext) (grant : PermissionGrant) :
    PolicyContext :=
  { context with permissionGrants := context.permissionGrants ++ [grant] }

/-- `PolicyContext::set_profile`. -/
def PolicyContext.setProfile (context : PolicyContext) (profile : SecurityProfile) :
    PolicyContext :=
  { context with profile := profile }

/-- `PolicyContext::set_now_ms`. -/
def PolicyContext.setNowMs (context : PolicyContext) (nowMs : Int) : PolicyContext :=
  { context with nowMs := nowMs }

/-- A chat session is taken over only where no agent has been set. -/
def PolicyContext.setSessionId (context : PolicyContext) (sessionId : Option ChatSessionId) :
    PolicyContext :=
  if context.agentId.isNone then
    { context with session := sessionId.map .chat }
  else
    context

/-- `missing_scope`: the first scope that the capability requires and that is not granted. -/
def PolicyContext.missingScope (context : PolicyContext) (descriptor : CapabilityDescriptor) :
    Option ScopeRequirement :=
  descriptor.scopeRequirements.find? fun scope => decide (scope ∉ context.grantedScopes)

/-- Granted scopes in their order. -/
def PolicyContext.normalizedGrants (context : PolicyContext) : List ScopeRequirement :=
  context.grantedScopes.sort

/-- `matching_permission`: the first active grant of an effect whose scope is that of the
proposal. -/
def PolicyContext.matchingPermission (context : PolicyContext) (proposal : ActionProposal)
    (effect : PermissionEffect) : Option PermissionGrant :=
  context.permissionGrants.find? fun grant =>
    grant.effect == effect && grant.isActive context.nowMs context.session context.agentId
      && grant.scope.matches proposal

/-! ## Decision procedure -/

/-- The engine has one setting, for writes that can be undone. -/
structure PolicyEngine where
  allowReversibleLocalWrites : Bool

/-- The engine of the daemon. -/
def PolicyEngine.new : PolicyEngine := ⟨true⟩

/-- `has_resource`: the proposal touches a resource of this classification. -/
def hasResource (proposal : ActionProposal) (class_ : ResourceClassification) : Bool :=
  proposal.context.resources.any fun resource => resource.classification == class_

/-- `secret_to_external`: the proposal lets a secret leave the computer. -/
def secretToExternal (proposal : ActionProposal) : Bool :=
  proposal.context.dataFlow.any fun flow =>
    (flow.dataClassification == .secret || flow.source.classification == .secret)
      && (flow.destination == .external || flow.destination == .untrustedExternal)

/-- Destructive risk on a production resource or production data. -/
def productionDestructive (capability : CapabilityDescriptor) (proposal : ActionProposal) : Bool :=
  capability.risk == .destructive
    && (hasResource proposal .production
      || proposal.context.dataFlow.any fun flow => flow.dataClassification == .production)

/-- Destructive, privileged or external risk on a system-critical resource. -/
def systemCriticalRisk (capability : CapabilityDescriptor) (proposal : ActionProposal) : Bool :=
  hasResource proposal .systemCritical
    && (capability.risk == .destructive || capability.risk == .privileged
      || capability.risk == .externalSideEffect)

/-- Origins without authority of their own. -/
def untrustedOrigin : ActionOrigin → Bool
  | .aiProposal | .externalContent | .plugin | .agent => true
  | _ => false

/-- Capabilities whose first segment is `security`, `permission` or `policy`. -/
def authorityCapability (id : CapabilityId) : Bool :=
  match (id.asStr.toList.splitOn '.').head? with
  | some segment =>
      segment == "security".toList || segment == "permission".toList || segment == "policy".toList
  | none => false

/-- Baseline of a risk class. The source panics on the last two classes; `decide` has denied them
before it asks for the baseline. -/
def PolicyEngine.riskBaseline (engine : PolicyEngine) : RiskClass → PolicyDecision
  | .readOnly => allow .readOnlyBaseline "baseline.read-only"
  | .localSideEffect => allow .localSideEffectBaseline "baseline.local-side-effect"
  | .reversibleLocalWrite =>
      if engine.allowReversibleLocalWrites then
        allow .reversibleLocalWriteBaseline "baseline.reversible-local-write"
      else
        confirmation .reversibleLocalWriteRequiresConfirmation
          "baseline.reversible-write-confirm" .standard
  | .externalSideEffect =>
      confirmation .externalSideEffectRequiresConfirmation
        "baseline.external-side-effect-confirm" .sensitive
  | .destructive =>
      confirmation .destructiveRequiresConfirmation "baseline.destructive-confirm" .destructive
  | .privileged => denial .privilegedDenied "baseline.privileged-deny" false
  | .unknown => denial .unknownRiskDenied "baseline.unknown-risk-deny" false

/-- Baseline for a valid proposal that no denial stopped. -/
def PolicyEngine.baseline (engine : PolicyEngine) (capability : CapabilityDescriptor)
    (proposal : ActionProposal) (profile : SecurityProfile) : PolicyDecision :=
  firstRule [
    rule (hasResource proposal .production)
      (confirmation .productionResourceRequiresConfirmation "resource.production-confirm"
        .sensitive),
    rule (proposal.context.resources.any fun resource =>
        resource.classification == .sensitive || resource.classification == .secret)
      (confirmation .sensitiveResourceRequiresConfirmation "resource.sensitive-confirm"
        .sensitive),
    rule (proposal.context.origin == .agent && capability.sideEffect)
      (confirmation .agentSideEffectRequiresConfirmation "agent.side-effect-confirm" .standard),
    rule (profile == .strict && capability.sideEffect)
      (confirmation .strictProfileRequiresConfirmation "profile.strict-side-effect-confirm"
        .standard),
    rule (capability.confirmation == .always)
      (confirmation .capabilityRequiresConfirmation "capability.always-confirm" .standard)]
  (engine.riskBaseline capability.risk)

/-- Denials, in the order of the source. -/
def denials (capability : CapabilityDescriptor) (proposal : ActionProposal)
    (context : PolicyContext) : List (Option PolicyDecision) := [
  rule (!capability.isValid) (denial .invalidDescriptor "core.invalid-descriptor" true),
  rule (!proposal.context.isValid) (denial .invalidProvenance "core.invalid-provenance" true),
  (context.missingScope capability).map fun scope =>
    denial (.missingScope scope) "core.missing-scope" false,
  rule (secretToExternal proposal)
    (denial .immutableSecretExfiltrationDeny "immutable.secret-to-external" true),
  rule (productionDestructive capability proposal)
    (denial .immutableProductionDestructiveDeny "immutable.production-destructive" true),
  rule (systemCriticalRisk capability proposal)
    (denial .immutableSystemCriticalDeny "immutable.system-critical" true),
  rule (untrustedOrigin proposal.context.origin && authorityCapability capability.id)
    (denial .untrustedAuthorityMutationDenied "immutable.untrusted-authority-mutation" true),
  (context.matchingPermission proposal .deny).map fun grant =>
    { denial .persistentExactDeny "grant.exact-deny" false with
      expiresAtMs := grant.expiresAtMs },
  rule (capability.risk == .privileged)
    (denial .privilegedDenied "baseline.privileged-deny" false),
  rule (capability.risk == .unknown)
    (denial .unknownRiskDenied "baseline.unknown-risk-deny" false)]

/-- An exact-scope Allow grant lifts a Confirm of the baseline. -/
def liftConfirm (proposal : ActionProposal) (context : PolicyContext)
    (baseline : PolicyDecision) : PolicyDecision :=
  if baseline.outcome = .confirm then
    match context.matchingPermission proposal .allow with
    | some grant =>
        { allow .persistentExactAllow "grant.exact-allow" with expiresAtMs := grant.expiresAtMs }
    | none => baseline
  else
    baseline

/-- `decide`: the first denial that applies, or the baseline with confirmation lifted by a grant. -/
def PolicyEngine.decide (engine : PolicyEngine) (capability : CapabilityDescriptor)
    (proposal : ActionProposal) (context : PolicyContext) : PolicyDecision :=
  firstRule (denials capability proposal context)
    (liftConfirm proposal context (engine.baseline capability proposal context.profile))

/-- `evaluate_proposal`: the decision alone, which authorizes nothing. -/
def PolicyEngine.evaluateProposal (engine : PolicyEngine) (capability : CapabilityDescriptor)
    (proposal : ActionProposal) (context : PolicyContext) : PolicyDecision :=
  engine.decide capability proposal context

/-- The action names the capability and has arguments of its kind. -/
def contractHolds (capability : CapabilityDescriptor) (action : ActionRequest) : Bool :=
  action.capabilityId == capability.id && action.arguments.kind == capability.arguments

/-- `authorize_proposal`: an allowed proposal whose contract holds is authorized. -/
def PolicyEngine.authorizeProposal (engine : PolicyEngine) (capability : CapabilityDescriptor)
    (proposal : ActionProposal) (executionId : ExecutionId) (context : PolicyContext) :
    PolicyEvaluation :=
  if !contractHolds capability proposal.action then
    .blocked (denial .invalidActionContract "core.invalid-action-contract" true)
  else
    let decision := engine.decide capability proposal context
    if decision.isAllowed then
      .allowed decision ⟨executionId, capability, proposal.action, context.normalizedGrants⟩
    else
      .blocked decision

/-- `authorize_confirmed_proposal_once`: a confirmation is lifted for this execution, a denial is
not. -/
def PolicyEngine.authorizeConfirmedProposalOnce (engine : PolicyEngine)
    (capability : CapabilityDescriptor) (proposal : ActionProposal) (executionId : ExecutionId)
    (context : PolicyContext) : PolicyEvaluation :=
  if !contractHolds capability proposal.action then
    .blocked (denial .invalidActionContract "core.invalid-action-contract" true)
  else
    let initial := engine.decide capability proposal context
    if initial.outcome = .deny then
      .blocked initial
    else
      let decision :=
        if initial.outcome = .confirm then allow .userConfirmedOnce "user.confirmed-once"
        else initial
      .allowed decision ⟨executionId, capability, proposal.action, context.normalizedGrants⟩

end Halquen.Policy.Engine
