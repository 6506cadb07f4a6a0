import Halquen.Policy.Authorization

/-!
# Authority of untrusted provenance

Validation ties the declared origin of a context to the last hop of its provenance, and an
untrusted origin to no authority. A hop before the last is only looked at for the local resolver,
whose chain has to start with the user, so a chain that passed through untrusted content and ends
with the user is accepted with the user's authority (`laundered_provenance`). The law that does
hold (`untrusted_provenance`) is about the last hop; the constructors of contexts build no chain
with an untrusted hop elsewhere.
-/

set_option autoImplicit false

namespace Halquen.Policy.Provenance

open Halquen.Domain.Ids Halquen.Domain.Capability Halquen.Domain.Security
open Halquen.Library.Rules Halquen.Policy.Engine Halquen.Policy.Specification
open Halquen.Policy.Authorization

/-- A hop whose origin has no authority of its own. -/
def Untrusted (hop : ProvenanceHop) : Prop := untrustedOrigin hop.origin = true

/-- Contexts as the constructors of the source build them. -/
inductive Constructed : ActionContext → Prop where
  | trustedUser (requestId : Option String) : Constructed (.trustedUser requestId)
  | localResolution (requestId : Option String) : Constructed (.localResolution requestId)
  | untrusted (origin : ActionOrigin) (actorId : Option String) (context : ActionContext)
      (h : ActionContext.untrusted origin actorId = some context) : Constructed context
  | ofAgent (identity : AgentExecutionIdentity) : Constructed (.ofAgent identity)
  | withResource (context : ActionContext) (resource : ResourceDescriptor)
      (h : Constructed context) : Constructed (context.withResource resource)
  | withDataFlow (context : ActionContext) (dataFlow : DataFlowContext)
      (h : Constructed context) : Constructed (context.withDataFlow dataFlow)

section Resources

variable (context : ActionContext) (resource : ResourceDescriptor)

@[simp]
theorem origin_withResource : (context.withResource resource).origin = context.origin := by
  unfold ActionContext.withResource
  split <;> rfl

@[simp]
theorem authority_withResource :
    (context.withResource resource).authority = context.authority := by
  unfold ActionContext.withResource
  split <;> rfl

@[simp]
theorem provenance_withResource :
    (context.withResource resource).provenance = context.provenance := by
  unfold ActionContext.withResource
  split <;> rfl

end Resources

section Validation

variable {context : ActionContext}

/-- The last hop of an accepted chain is the declared origin. -/
theorem getLast_origin_of_validate (h : context.validate = .ok ()) {hop : ProvenanceHop}
    (hlast : context.provenance.hops.getLast? = some hop) : hop.origin = context.origin := by
  rw [ActionContext.validate, firstFailure_eq_ok_iff] at h
  simp only [silent_cons, rule_eq_none_iff, hlast, Option.map_some] at h
  obtain ⟨-, -, horigin, -⟩ := h
  simpa using horigin

/-- An accepted context with an untrusted origin has no authority. -/
theorem authority_of_untrusted_origin (h : context.validate = .ok ())
    (horigin : untrustedOrigin context.origin = true) : context.authority = .none := by
  rw [ActionContext.validate, firstFailure_eq_ok_iff] at h
  simp only [silent_cons] at h
  obtain ⟨-, -, -, hfailure, -⟩ := h
  rw [untrustedOrigin_iff] at horigin
  -- Every untrusted origin has a rule of its own for the authority.
  rcases horigin with horigin | horigin | horigin | horigin <;>
    rw [ActionContext.originFailure, horigin] at hfailure
  all_goals
    by_contra hauthority
    have hfires : (context.authority != .none) = true := by simpa using hauthority
    simp [hfires] at hfailure

/-- Contexts that the constructors build have an untrusted hop only under an untrusted origin. -/
theorem untrusted_of_constructed (h : Constructed context)
    (hhop : ∃ hop ∈ context.provenance.hops, Untrusted hop) :
    context.authority = .none ∧ untrustedOrigin context.origin = true := by
  induction h with
  | trustedUser requestId =>
      simp [ActionContext.trustedUser, Untrusted, untrustedOrigin] at hhop
  | localResolution requestId =>
      simp [ActionContext.localResolution, ActionContext.trustedUser, Untrusted,
        untrustedOrigin] at hhop
  | untrusted origin actorId context hnew =>
      cases origin <;> simp only [ActionContext.untrusted, Option.some.injEq, reduceCtorEq]
        at hnew <;> rw [← hnew] <;> exact ⟨rfl, rfl⟩
  | ofAgent identity => exact ⟨rfl, rfl⟩
  | withResource context resource _ ih =>
      rw [provenance_withResource] at hhop
      rw [authority_withResource, origin_withResource]
      exact ih hhop
  | withDataFlow context dataFlow _ ih => exact ih hhop

/-- Untrusted provenance: the last hop is untrusted, or the context was built by the constructors
and some hop of it is. -/
def UntrustedProvenance (context : ActionContext) : Prop :=
  (∃ hop, context.provenance.hops.getLast? = some hop ∧ Untrusted hop) ∨
    Constructed context ∧ ∃ hop ∈ context.provenance.hops, Untrusted hop

theorem untrustedOrigin_of_provenance (h : context.validate = .ok ())
    (huntrusted : UntrustedProvenance context) : untrustedOrigin context.origin = true := by
  rcases huntrusted with ⟨hop, hlast, hhop⟩ | ⟨hconstructed, hhop⟩
  · rw [← getLast_origin_of_validate h hlast]
    exact hhop
  · exact (untrusted_of_constructed hconstructed hhop).2

end Validation

section Authority

variable (engine : PolicyEngine) (c : CapabilityDescriptor) (p : ActionProposal)
  (x : ExecutionId) (ctx : PolicyContext)

/-- Nothing lets the proposal through: it is denied, before and after a confirmation. -/
structure NotAuthorised : Prop where
  denied : (engine.decide c p ctx).outcome = .deny
  no_authorization : (engine.authorizeProposal c p x ctx).authorization = none
  no_confirmed_authorization :
    (engine.authorizeConfirmedProposalOnce c p x ctx).authorization = none

theorem notAuthorised_of_obstructed (h : ¬ Unobstructed c p ctx) :
    NotAuthorised engine c p x ctx where
  denied := (outcome_decide_eq_deny_iff engine c p ctx).mpr h
  no_authorization := by
    rw [← Option.not_isSome_iff_eq_none, (authorizeProposal_spec engine c p x ctx).2]
    rintro ⟨-, hfree, -⟩
    exact h hfree
  no_confirmed_authorization := by
    rw [← Option.not_isSome_iff_eq_none, (authorizeConfirmedProposalOnce_spec engine c p x ctx).2]
    rintro ⟨-, hfree⟩
    exact h hfree

theorem notAuthorised_of_untrusted_origin (horigin : untrustedOrigin p.context.origin = true)
    (hauthority : authorityCapability c.id = true) : NotAuthorised engine c p x ctx := by
  apply notAuthorised_of_obstructed
  intro hfree
  apply hfree.immutable
  rw [immutableRule_iff]
  right; right; right
  rw [horigin, hauthority, Bool.and_self]

end Authority

/-- An accepted context of untrusted provenance has no authority, and no proposal in it is
authorised for a security, permission or policy capability. -/
theorem untrusted_provenance (context : ActionContext) (h : context.validate = .ok ())
    (huntrusted : UntrustedProvenance context) :
    context.authority = .none ∧
      ∀ (engine : PolicyEngine) (c : CapabilityDescriptor) (action : ActionRequest)
        (x : ExecutionId) (ctx : PolicyContext), authorityCapability c.id = true →
        NotAuthorised engine c ⟨action, context⟩ x ctx := by
  have horigin := untrustedOrigin_of_provenance h huntrusted
  refine ⟨authority_of_untrusted_origin h horigin, ?_⟩
  intro engine c action x ctx hauthority
  exact notAuthorised_of_untrusted_origin engine c ⟨action, context⟩ x ctx horigin hauthority

/-! ## A laundered chain -/

/-- A chain that starts with external content and ends with the user. -/
def laundered : ActionContext :=
  { ActionContext.trustedUser none with
    provenance := ⟨none, [⟨.externalContent, .system, none⟩, ⟨.userExplicit, .user, none⟩]⟩ }

/-- Content of a web page, without authority. -/
def webPage : ActionContext where
  origin := .externalContent
  trust := .externalContent
  authority := .none
  provenance := ⟨none, [⟨.externalContent, .system, none⟩]⟩
  resources := []
  dataFlow := none
  agent := none

theorem untrusted_provenance_webPage :
    webPage.authority = .none ∧
      ∀ (engine : PolicyEngine) (c : CapabilityDescriptor) (action : ActionRequest)
        (x : ExecutionId) (ctx : PolicyContext), authorityCapability c.id = true →
        NotAuthorised engine c ⟨action, webPage⟩ x ctx :=
  untrusted_provenance webPage (by decide) (.inl ⟨⟨.externalContent, .system, none⟩, rfl, rfl⟩)

/-- A capability that reads the permissions. -/
def listPermissions : CapabilityDescriptor where
  id := ⟨"permission.list", by decide⟩
  version := 1
  description := "List the permissions"
  risk := .readOnly
  sideEffect := false
  idempotent := true
  reversible := false
  scopeRequirements := []
  confirmation := .riskBased
  timeoutMs := 5000
  arguments := .none

/-- The laundered chain is accepted with the authority of the user, and a proposal in it is allowed
for a permission capability. -/
theorem laundered_provenance :
    (¬ ∀ context : ActionContext, context.validate = .ok () →
      (∃ hop ∈ context.provenance.hops, Untrusted hop) → context.authority = .none) ∧
    ¬ ∀ (engine : PolicyEngine) (c : CapabilityDescriptor) (p : ActionProposal) (x : ExecutionId)
      (ctx : PolicyContext), p.context.validate = .ok () →
      (∃ hop ∈ p.context.provenance.hops, Untrusted hop) → authorityCapability c.id = true →
      NotAuthorised engine c p x ctx := by
  have hvalid : laundered.validate = .ok () := by decide
  have hhop : ∃ hop ∈ laundered.provenance.hops, Untrusted hop :=
    ⟨⟨.externalContent, .system, none⟩, by decide, rfl⟩
  constructor
  · intro h
    have hauthority := h laundered hvalid hhop
    cases hauthority
  · intro h
    have hdenied := (h .new listPermissions ⟨⟨listPermissions.id, .none⟩, laundered⟩
      ⟨"execution:1", by decide⟩ .default hvalid hhop (by decide)).denied
    have hallowed : (PolicyEngine.new.decide listPermissions
        ⟨⟨listPermissions.id, .none⟩, laundered⟩ .default).outcome = .allow := by decide
    rw [hallowed] at hdenied
    cases hdenied

end Halquen.Policy.Provenance
