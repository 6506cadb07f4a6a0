import Halquen.Policy.Specification
import Halquen.Capabilities.Executor

/-!
# Authorizations

When the two entry points of the policy engine hand out an authorization, and what the
authorization carries. `authorizeProposal_spec` and `authorizeConfirmedProposalOnce_spec` describe
the two evaluations; `authorization_characterized` puts them together.
-/

set_option autoImplicit false

namespace Halquen.Policy.Authorization

open Halquen.Domain.Ids Halquen.Domain.Capability Halquen.Domain.Security
open Halquen.Policy.Engine Halquen.Policy.Specification Halquen.Capabilities.Executor

/-- The action names the capability and brings arguments of its kind. -/
structure Contract (c : CapabilityDescriptor) (p : ActionProposal) : Prop where
  capability : p.action.capabilityId = c.id
  arguments : p.action.arguments.kind = c.arguments

/-- The baseline allows, or asks for a confirmation that an exact-scope Allow grant supplies. -/
def BaselineCleared (engine : PolicyEngine) (c : CapabilityDescriptor) (p : ActionProposal)
    (ctx : PolicyContext) : Prop :=
  (engine.baseline c p ctx.profile).outcome = .allow ∨
    (engine.baseline c p ctx.profile).outcome = .confirm ∧ ∃ g, ExactGrant ctx p .allow g

/-- An evaluation holds an authorization exactly when its outcome is Allow, and the authorization
is for this execution, capability and action and passes the executors' check. -/
structure Coherent (e : PolicyEvaluation) (x : ExecutionId) (c : CapabilityDescriptor)
    (p : ActionProposal) : Prop where
  isSome_iff : e.authorization.isSome = true ↔ e.decision.outcome = .allow
  carries : ∀ a, e.authorization = some a →
    a.executionId = x ∧ a.descriptor = c ∧ a.action = p.action ∧ validateAuthorization a = .ok ()

section

variable (engine : PolicyEngine) (c : CapabilityDescriptor) (p : ActionProposal)
  (x : ExecutionId) (ctx : PolicyContext)

theorem contractHolds_iff : contractHolds c p.action = true ↔ Contract c p := by
  simp only [contractHolds, Bool.and_eq_true, beq_iff_eq]
  exact ⟨fun h => ⟨h.1, h.2⟩, fun h => ⟨h.1, h.2⟩⟩

theorem validateAuthorization_of_contract (hcontract : Contract c p) (hvalid : c.validate = .ok ())
    (scopes : List ScopeRequirement) : validateAuthorization ⟨x, c, p.action, scopes⟩ = .ok () := by
  have hc : c.isValid = true := (capability_isValid_iff c).mpr hvalid
  simp [validateAuthorization, hc, hcontract.capability, hcontract.arguments]

theorem coherent_blocked {d : PolicyDecision} (h : d.outcome ≠ .allow) :
    Coherent (.blocked d) x c p where
  isSome_iff := by simp [PolicyEvaluation.blocked, h]
  carries := by simp [PolicyEvaluation.blocked]

theorem coherent_allowed {d : PolicyDecision} (h : d.outcome = .allow) (hcontract : Contract c p)
    (hvalid : c.validate = .ok ()) (scopes : List ScopeRequirement) :
    Coherent (.allowed d ⟨x, c, p.action, scopes⟩) x c p where
  isSome_iff := by simp [PolicyEvaluation.allowed, h]
  carries := by
    intro a ha
    simp only [PolicyEvaluation.allowed, Option.some.injEq] at ha
    subst ha
    exact ⟨rfl, rfl, rfl, validateAuthorization_of_contract c p x hcontract hvalid scopes⟩

/-- Evaluation without confirmation. -/
theorem authorizeProposal_spec :
    Coherent (engine.authorizeProposal c p x ctx) x c p ∧
      ((engine.authorizeProposal c p x ctx).authorization.isSome = true ↔
        Contract c p ∧ Unobstructed c p ctx ∧ BaselineCleared engine c p ctx) := by
  unfold PolicyEngine.authorizeProposal
  by_cases hcontract : Contract c p
  · have hholds := (contractHolds_iff c p).mpr hcontract
    have hiff := outcome_decide_eq_allow_iff engine c p ctx
    simp only [hholds, Bool.not_true, Bool.false_eq_true, if_false, PolicyDecision.isAllowed,
      beq_iff_eq]
    split
    · rename_i hallow
      have hclear := hiff.mp hallow
      refine ⟨coherent_allowed c p x hallow hcontract hclear.1.descriptor _, ?_⟩
      simp [PolicyEvaluation.allowed, BaselineCleared, hcontract, hclear.1, hclear.2]
    · rename_i hallow
      refine ⟨coherent_blocked c p x hallow, ?_⟩
      rw [hiff] at hallow
      simp only [PolicyEvaluation.blocked, Option.isSome_none, Bool.false_eq_true, false_iff]
      exact fun h => hallow h.2
  · have hholds : contractHolds c p.action = false := by
      rw [← Bool.not_eq_true, contractHolds_iff]
      exact hcontract
    simp only [hholds, Bool.not_false, if_true]
    refine ⟨coherent_blocked c p x (by simp [denial]), ?_⟩
    simp [PolicyEvaluation.blocked, hcontract]

/-- Evaluation of a proposal that the user has just confirmed. -/
theorem authorizeConfirmedProposalOnce_spec :
    Coherent (engine.authorizeConfirmedProposalOnce c p x ctx) x c p ∧
      ((engine.authorizeConfirmedProposalOnce c p x ctx).authorization.isSome = true ↔
        Contract c p ∧ Unobstructed c p ctx) := by
  unfold PolicyEngine.authorizeConfirmedProposalOnce
  by_cases hcontract : Contract c p
  · have hholds := (contractHolds_iff c p).mpr hcontract
    have hiff := outcome_decide_eq_deny_iff engine c p ctx
    simp only [hholds, Bool.not_true, Bool.false_eq_true, if_false]
    split
    · rename_i hdeny
      refine ⟨coherent_blocked c p x (by simp [hdeny]), ?_⟩
      simp [PolicyEvaluation.blocked, hiff.mp hdeny]
    · rename_i hdeny
      have hclear : Unobstructed c p ctx := by
        rw [hiff, not_not] at hdeny
        exact hdeny
      refine ⟨coherent_allowed c p x ?_ hcontract hclear.descriptor _, ?_⟩
      · split
        · rfl
        · rename_i hconfirm
          cases ho : (engine.decide c p ctx).outcome <;> simp_all
      · simp [PolicyEvaluation.allowed, hcontract, hclear]
  · have hholds : contractHolds c p.action = false := by
      rw [← Bool.not_eq_true, contractHolds_iff]
      exact hcontract
    simp only [hholds, Bool.not_false, if_true]
    refine ⟨coherent_blocked c p x (by simp [denial]), ?_⟩
    simp [PolicyEvaluation.blocked, hcontract]

/-- Outcome, reason and authorization of both entry points depend on the verdict alone. -/
theorem evaluations_congr {ctx' : PolicyContext}
    (hscopes : ctx.grantedScopes = ctx'.grantedScopes)
    (h : verdict (engine.decide c p ctx) = verdict (engine.decide c p ctx')) :
    (verdict (engine.authorizeProposal c p x ctx).decision =
        verdict (engine.authorizeProposal c p x ctx').decision ∧
      (engine.authorizeProposal c p x ctx).authorization =
        (engine.authorizeProposal c p x ctx').authorization) ∧
    verdict (engine.authorizeConfirmedProposalOnce c p x ctx).decision =
        verdict (engine.authorizeConfirmedProposalOnce c p x ctx').decision ∧
      (engine.authorizeConfirmedProposalOnce c p x ctx).authorization =
        (engine.authorizeConfirmedProposalOnce c p x ctx').authorization := by
  have houtcome : (engine.decide c p ctx).outcome = (engine.decide c p ctx').outcome :=
    congrArg Prod.fst h
  have hgrants : ctx.normalizedGrants = ctx'.normalizedGrants := by
    rw [PolicyContext.normalizedGrants, PolicyContext.normalizedGrants, hscopes]
  constructor
  -- Both of them look at the decision and at the granted scopes only.
  · unfold PolicyEngine.authorizeProposal PolicyDecision.isAllowed
    split
    · exact ⟨rfl, rfl⟩
    · simp only [houtcome]
      split
      · exact ⟨h, by rw [PolicyEvaluation.allowed, PolicyEvaluation.allowed, hgrants]⟩
      · exact ⟨h, rfl⟩
  · unfold PolicyEngine.authorizeConfirmedProposalOnce
    split
    · exact ⟨rfl, rfl⟩
    · simp only [houtcome]
      split
      · exact ⟨h, rfl⟩
      · refine ⟨?_, by rw [PolicyEvaluation.allowed, PolicyEvaluation.allowed, hgrants]⟩
        split
        · rfl
        · exact h

/-- Without confirmation an authorization is handed out exactly when the contract holds, nothing
obstructs the proposal and the baseline is cleared; with confirmation the last condition is
dropped. Both evaluations are coherent. -/
theorem authorization_characterized :
    ((engine.authorizeProposal c p x ctx).authorization.isSome = true ↔
      Contract c p ∧ Unobstructed c p ctx ∧ BaselineCleared engine c p ctx) ∧
    ((engine.authorizeConfirmedProposalOnce c p x ctx).authorization.isSome = true ↔
      Contract c p ∧ Unobstructed c p ctx) ∧
    Coherent (engine.authorizeProposal c p x ctx) x c p ∧
    Coherent (engine.authorizeConfirmedProposalOnce c p x ctx) x c p :=
  ⟨(authorizeProposal_spec engine c p x ctx).2,
    (authorizeConfirmedProposalOnce_spec engine c p x ctx).2,
    (authorizeProposal_spec engine c p x ctx).1,
    (authorizeConfirmedProposalOnce_spec engine c p x ctx).1⟩

end

end Halquen.Policy.Authorization
