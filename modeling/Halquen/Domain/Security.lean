import Halquen.Domain.Capability

/-!
# Security vocabulary

Origins, provenance, resources and data flow of a proposed action, and the permission grants that
a user attaches to exact scopes. The validators keep the checks and the order of the source.

A permission grant matches a proposal exactly when its scope is the scope of the proposal
(`PermissionScope.matches_iff`), and `PermissionGrant.isActive_iff` spells out when it counts.
-/

set_option autoImplicit false

namespace Halquen.Domain.Security

open Halquen.Domain.Ids Halquen.Domain.Capability Halquen.Library.Rules

/-- `MAX_PROVENANCE_HOPS`. -/
def maxProvenanceHops : Nat := 8

/-- `MAX_ACTION_RESOURCES`. -/
def maxActionResources : Nat := 16

/-- How far a statement is to be believed. -/
inductive TrustClass where
  | userExplicit | localVerified | userConfirmedResult | userBehaviour | aiInferred
  | pluginAsserted | externalContent
  deriving DecidableEq, Repr

/-- Classes of evidence that authorize a procedural memory on their own. -/
def TrustClass.independentlyAuthorizesProceduralMemory : TrustClass → Bool
  | .userExplicit | .userConfirmedResult => true
  | _ => false

/-- Where an action comes from. -/
inductive ActionOrigin where
  | userExplicit | localResolver | aiProposal | externalContent | plugin | storedProcedure
  | agent | system
  deriving DecidableEq, Repr

/-- On whose authority an action is requested. -/
inductive AuthorityClass where
  | none | user | halquenCore
  deriving DecidableEq, Repr

/-- Who handled a request on its way. -/
inductive ActorKind where
  | user | halquen | model | plugin | storedProcedure | agent | system
  deriving DecidableEq, Repr

/-- One station on the way of a request. -/
structure ProvenanceHop where
  origin : ActionOrigin
  actor : ActorKind
  actorId : Option String
  deriving DecidableEq

/-- The way of a request to the daemon. -/
structure ActionProvenance where
  initiatingRequestId : Option String
  hops : List ProvenanceHop
  deriving DecidableEq

/-- How careful one must be with a resource. -/
inductive ResourceClassification where
  | «public» | «local» | personal | sensitive | secret | production | systemCritical
  deriving DecidableEq, Repr

/-- Position in the declaration order, from which the order of the classes is derived. -/
def ResourceClassification.rank : ResourceClassification → Nat
  | .«public» => 0
  | .«local» => 1
  | .personal => 2
  | .sensitive => 3
  | .secret => 4
  | .production => 5
  | .systemCritical => 6

instance : LinearOrder ResourceClassification :=
  LinearOrder.lift' ResourceClassification.rank (by
    intro a b h
    cases a <;> cases b <;> first | rfl | simp [ResourceClassification.rank] at h)

/-- How careful one must be with data. -/
inductive DataClassification where
  | «public» | personal | sensitive | secret | production
  deriving DecidableEq, Repr

/-- Kinds of resources. -/
inductive ResourceKind where
  | application | file | networkEndpoint | database | agent | plugin | system
  deriving DecidableEq, Repr

/-- A resource that an action touches. -/
structure ResourceDescriptor where
  kind : ResourceKind
  identifier : String
  classification : ResourceClassification
  deriving DecidableEq

/-- Where data may be sent. -/
inductive DestinationClass where
  | «local» | trustedEndpoint | external | untrustedExternal
  deriving DecidableEq, Repr

/-- Data that an action moves, with its source and its destination. -/
structure DataFlowContext where
  source : ResourceDescriptor
  dataClassification : DataClassification
  destination : DestinationClass
  deriving DecidableEq

/-- The run of an agent that makes a proposal. -/
structure AgentExecutionIdentity where
  agentId : AgentId
  instanceId : AgentInstanceId
  sessionId : AgentSessionId
  deriving DecidableEq

/-- All that is known of a proposal apart from the action itself. -/
structure ActionContext where
  origin : ActionOrigin
  trust : TrustClass
  authority : AuthorityClass
  provenance : ActionProvenance
  resources : List ResourceDescriptor
  dataFlow : Option DataFlowContext
  agent : Option AgentExecutionIdentity
  deriving DecidableEq

/-- Which part of a value a check refuses. -/
inductive SecurityValidationError where
  | invalidBounds | invalidProvenance | invalidAuthority | invalidPermission
  | invalidResourceLabel | invalidAgentConfiguration | invalidExecutableIdentity
  | invalidApplicationRegistration
  deriving DecidableEq, Repr

/-! ## Action contexts -/

/-- Context of an action that the user asked for. -/
def ActionContext.trustedUser (requestId : Option String) : ActionContext where
  origin := .userExplicit
  trust := .userExplicit
  authority := .user
  provenance := ⟨requestId, [⟨.userExplicit, .user, none⟩]⟩
  resources := []
  dataFlow := none
  agent := none

/-- Context of an action that the local resolver derived from a user's message. -/
def ActionContext.localResolution (requestId : Option String) : ActionContext :=
  let context := ActionContext.trustedUser requestId
  { context with
    origin := .localResolver
    authority := .halquenCore
    provenance := { context.provenance with
      hops := context.provenance.hops ++
        [⟨.localResolver, .halquen, some "local-resolver"⟩] } }

/-- Context of an action that a source without authority proposes; other origins are refused. -/
def ActionContext.untrusted (origin : ActionOrigin) (actorId : Option String) :
    Option ActionContext :=
  let context (trust : TrustClass) (actor : ActorKind) : ActionContext :=
    { origin := origin
      trust := trust
      authority := .none
      provenance := ⟨none, [⟨origin, actor, actorId⟩]⟩
      resources := []
      dataFlow := none
      agent := none }
  match origin with
  | .aiProposal => some (context .aiInferred .model)
  | .externalContent => some (context .externalContent .system)
  | .plugin => some (context .pluginAsserted .plugin)
  | .agent => some (context .externalContent .agent)
  | .userExplicit | .localResolver | .storedProcedure | .system => none

/-- Context of an action proposed by an agent process. -/
def ActionContext.ofAgent (identity : AgentExecutionIdentity) : ActionContext where
  origin := .agent
  trust := .externalContent
  authority := .none
  provenance := ⟨none, [⟨.agent, .agent, some identity.agentId.asStr⟩]⟩
  resources := []
  dataFlow := none
  agent := some identity

/-- `with_resource`: one more resource, unless there are too many already. -/
def ActionContext.withResource (context : ActionContext) (resource : ResourceDescriptor) :
    ActionContext :=
  if context.resources.length < maxActionResources then
    { context with resources := context.resources ++ [resource] }
  else
    context

/-- `with_data_flow`. -/
def ActionContext.withDataFlow (context : ActionContext) (dataFlow : DataFlowContext) :
    ActionContext :=
  { context with dataFlow := some dataFlow }

/-- Identifier test of the provenance check: as `validateOpaque`, with the bound as an argument. -/
def validIdentifier (value : String) (maxLen : Nat) : Bool :=
  value != "" && decide (value.utf8ByteSize ≤ maxLen) && value.toList.all isOpaqueChar

/-- Authority that an origin may carry. -/
def ActionContext.originFailure (context : ActionContext) : Option SecurityValidationError :=
  match context.origin with
  | .userExplicit =>
      firstRule [
        rule (context.trust != .userExplicit || context.authority != .user)
          (some .invalidAuthority),
        rule context.agent.isSome (some .invalidProvenance)] none
  | .localResolver =>
      firstRule [
        rule (context.authority != .halquenCore
            || context.provenance.hops.head?.map ProvenanceHop.origin != some .userExplicit)
          (some .invalidAuthority),
        rule context.agent.isSome (some .invalidProvenance)] none
  | .aiProposal | .externalContent | .plugin =>
      firstRule [
        rule (context.authority != .none) (some .invalidAuthority),
        rule context.agent.isSome (some .invalidProvenance)] none
  | .agent => rule (context.authority != .none || context.agent.isNone) .invalidAuthority
  | .storedProcedure | .system => rule context.agent.isSome .invalidProvenance

/-- `ActionContext::validate`: bounds first, then provenance, then authority. -/
def ActionContext.validate (context : ActionContext) : Except SecurityValidationError Unit :=
  firstFailure [
    rule (context.provenance.hops.isEmpty
        || decide (maxProvenanceHops < context.provenance.hops.length)
        || decide (maxActionResources < context.resources.length)) .invalidBounds,
    rule (context.provenance.initiatingRequestId.any (fun value => !validIdentifier value 128)
        || context.provenance.hops.any
            (fun hop => hop.actorId.any fun value => !validIdentifier value 128)
        || context.resources.any
            (fun resource => isBlank resource.identifier
              || decide (1024 < resource.identifier.utf8ByteSize))) .invalidBounds,
    rule (context.provenance.hops.getLast?.map ProvenanceHop.origin != some context.origin)
      .invalidProvenance,
    context.originFailure]

/-- `validate().is_ok()`. -/
def ActionContext.isValid (context : ActionContext) : Bool := context.validate matches .ok _

/-- An action with its context. -/
structure ActionProposal where
  action : ActionRequest
  context : ActionContext
  deriving DecidableEq

/-- A proposal is built from a valid context only. -/
def ActionProposal.new (action : ActionRequest) (context : ActionContext) :
    Except SecurityValidationError ActionProposal := do
  context.validate
  .ok ⟨action, context⟩

/-- Destination of the proposal's data flow. -/
def ActionProposal.destination (proposal : ActionProposal) : Option DestinationClass :=
  proposal.context.dataFlow.map DataFlowContext.destination

/-- The context as it is audited, without texts. -/
structure ActionContextSummary where
  origin : ActionOrigin
  trust : TrustClass
  authority : AuthorityClass
  provenance : List ActionOrigin
  resourceKinds : List ResourceKind
  resourceClassifications : List ResourceClassification
  dataClassification : Option DataClassification
  destination : Option DestinationClass
  agent : Option AgentExecutionIdentity
  deriving DecidableEq

/-- What the audit trail keeps of a context: no identifier of a resource. -/
def ActionContext.sanitizedSummary (context : ActionContext) : ActionContextSummary where
  origin := context.origin
  trust := context.trust
  authority := context.authority
  provenance := context.provenance.hops.map ProvenanceHop.origin
  resourceKinds := context.resources.map ResourceDescriptor.kind
  resourceClassifications := context.resources.map ResourceDescriptor.classification
  dataClassification := context.dataFlow.map DataFlowContext.dataClassification
  destination := context.dataFlow.map DataFlowContext.destination
  agent := context.agent

/-! ## Permission grants -/

/-- How cautious the user wants the daemon to be. -/
inductive SecurityProfile where
  | strict | balanced | developer | custom
  deriving DecidableEq, Repr

/-- Whether a grant permits or forbids. -/
inductive PermissionEffect where
  | allow | deny
  deriving DecidableEq, Repr

/-- How long a grant lasts. -/
inductive PermissionLifetime where
  | once | session | «until» | always
  deriving DecidableEq, Repr

/-- The session to which a grant is bound. -/
inductive PermissionSessionScope where
  | chat (id : ChatSessionId)
  | agent (id : AgentSessionId)
  | daemon (id : DaemonSessionId)
  deriving DecidableEq

/-- The actions that a grant is about. -/
structure PermissionScope where
  capabilityId : CapabilityId
  arguments : ActionArguments
  resources : List ResourceDescriptor
  destination : Option DestinationClass
  deriving DecidableEq

/-- `PermissionScope::from_proposal`: just the action proposed. -/
def PermissionScope.fromProposal (proposal : ActionProposal) : PermissionScope where
  capabilityId := proposal.action.capabilityId
  arguments := proposal.action.arguments
  resources := proposal.context.resources
  destination := proposal.destination

/-- `PermissionScope::matches`: the scope is that of the proposal in every part. -/
def PermissionScope.matches (scope : PermissionScope) (proposal : ActionProposal) : Bool :=
  scope.capabilityId == proposal.action.capabilityId
    && scope.arguments == proposal.action.arguments
    && scope.resources == proposal.context.resources
    && scope.destination == proposal.destination

/-- A decision of the user that is remembered. -/
structure PermissionGrant where
  id : PermissionId
  effect : PermissionEffect
  lifetime : PermissionLifetime
  scope : PermissionScope
  session : Option PermissionSessionScope
  agentId : Option AgentId
  grantedBy : ActionOrigin
  grantedAtMs : Int
  expiresAtMs : Option Int
  revokedAtMs : Option Int
  useLimit : Option UInt32
  useCount : UInt32
  deriving DecidableEq

/-- The grant counts at a time, in a session and for an agent. -/
def PermissionGrant.isActive (grant : PermissionGrant) (nowMs : Int)
    (session : Option PermissionSessionScope) (agentId : Option AgentId) : Bool :=
  grant.revokedAtMs.isNone
    && grant.expiresAtMs.all (fun expiry => decide (nowMs ≤ expiry))
    && grant.useLimit.all (fun limit => decide (grant.useCount < limit))
    && (match grant.lifetime with
        | .session => grant.session == session
        | _ => true)
    && (match agentId with
        | some agentId => grant.agentId == some agentId
        | none => grant.agentId.isNone)

/-- `PermissionGrant::validate`. -/
def PermissionGrant.validate (grant : PermissionGrant) : Except SecurityValidationError Unit :=
  firstFailure [
    rule (!(grant.grantedBy == .userExplicit || grant.grantedBy == .system)
      || decide (maxActionResources < grant.scope.resources.length)
      || grant.expiresAtMs.any (fun expiry => decide (expiry < grant.grantedAtMs))
      || (grant.lifetime == .once && grant.useLimit != some 1)
      || (grant.lifetime == .session && grant.session.isNone)
      || (grant.lifetime != .session && grant.session.isSome)
      || ((grant.session matches some (.agent _)) && grant.agentId.isNone)
      || ((grant.session matches some (.chat _) | some (.daemon _)) && grant.agentId.isSome)
      || (grant.lifetime == .until && grant.expiresAtMs.isNone)) .invalidPermission]

/-! ## Resource labels -/

/-- How the pattern of a label is read. -/
inductive ResourceMatchKind where
  | exact | pathPrefix | host
  deriving DecidableEq, Repr

/-- Classification that the user attaches to the resources that match a pattern. -/
structure ResourceLabel where
  id : ResourceLabelId
  name : String
  resourceKind : ResourceKind
  matchKind : ResourceMatchKind
  pattern : String
  classification : ResourceClassification
  dataClassification : DataClassification
  createdAtMs : Int
  updatedAtMs : Int
  deriving DecidableEq

/-- `ResourceLabel::validate`. -/
def ResourceLabel.validate (label : ResourceLabel) : Except SecurityValidationError Unit :=
  firstFailure [
    rule (isBlank label.name
      || decide (128 < label.name.utf8ByteSize)
      || isBlank label.pattern
      || decide (1024 < label.pattern.utf8ByteSize)
      || decide (label.updatedAtMs < label.createdAtMs)) .invalidResourceLabel]

/-! ## Matching and activity of grants -/

/-- Exact-scope matching compares the whole scope. -/
theorem PermissionScope.matches_iff (scope : PermissionScope) (proposal : ActionProposal) :
    scope.matches proposal = true ↔ scope = PermissionScope.fromProposal proposal := by
  cases scope
  simp [PermissionScope.matches, PermissionScope.fromProposal, and_assoc]

/-- Binding of a grant to an agent: exact in both directions. -/
theorem PermissionGrant.isActive_iff (grant : PermissionGrant) (nowMs : Int)
    (session : Option PermissionSessionScope) (agentId : Option AgentId) :
    grant.isActive nowMs session agentId = true ↔
      grant.revokedAtMs = none ∧ (∀ expiry ∈ grant.expiresAtMs, nowMs ≤ expiry) ∧
        (∀ limit ∈ grant.useLimit, grant.useCount < limit) ∧
        (grant.lifetime = .session → grant.session = session) ∧ grant.agentId = agentId := by
  unfold PermissionGrant.isActive
  cases agentId <;> cases grant.lifetime <;>
    simp [Option.all_eq_true, and_assoc]

end Halquen.Domain.Security
