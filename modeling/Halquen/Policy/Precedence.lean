import Halquen.Policy.Specification

/-!
# Precedence of the immutable rules

The documented precedence puts the immutable hard denials first. In the engine two validity checks
and the check for missing scopes come before them, and a missing scope is denied without
`hardDeny`. For a valid descriptor and a valid context an immutable rule that applies is therefore
the one that answers exactly when no required scope is missing (`immutable_answers_iff`); otherwise
the answer is the soft denial of the missing scope (`decide_of_missing_scope`).
-/

set_option autoImplicit false

namespace Halquen.Policy.Precedence

open Halquen.Domain.Ids Halquen.Domain.Capability Halquen.Domain.Security
open Halquen.Library.Rules Halquen.Policy.Engine Halquen.Policy.Specification

/-- An immutable rule applies, and this is its identifier. -/
inductive AppliesAs (c : CapabilityDescriptor) (p : ActionProposal) : String → Prop where
  | secretToExternal (flow : DataFlowContext) (hflow : p.context.dataFlow = some flow)
      (hsecret : flow.dataClassification = .secret ∨ flow.source.classification = .secret)
      (hdestination : flow.destination = .external ∨ flow.destination = .untrustedExternal) :
      AppliesAs c p "immutable.secret-to-external"
  | productionDestructive (hrisk : c.risk = .destructive)
      (hproduction : (∃ r ∈ p.context.resources, r.classification = .production) ∨
        ∃ flow, p.context.dataFlow = some flow ∧ flow.dataClassification = .production) :
      AppliesAs c p "immutable.production-destructive"
  | systemCritical (r : ResourceDescriptor) (hr : r ∈ p.context.resources)
      (hclass : r.classification = .systemCritical)
      (hrisk : c.risk = .destructive ∨ c.risk = .privileged ∨ c.risk = .externalSideEffect) :
      AppliesAs c p "immutable.system-critical"
  | untrustedAuthority
      (horigin : p.context.origin = .aiProposal ∨ p.context.origin = .externalContent ∨
        p.context.origin = .plugin ∨ p.context.origin = .agent)
      (segment : List Char) (hsegment : (c.id.asStr.toList.splitOn '.').head? = some segment)
      (hauthority : segment = "security".toList ∨ segment = "permission".toList ∨
        segment = "policy".toList) :
      AppliesAs c p "immutable.untrusted-authority-mutation"

section Precedence

variable (engine : PolicyEngine) (c : CapabilityDescriptor) (p : ActionProposal)
  (ctx : PolicyContext)

theorem exists_appliesAs_iff : (∃ id, AppliesAs c p id) ↔ ImmutableRule c p := by
  constructor
  · rintro ⟨id, h⟩
    cases h with
    | secretToExternal flow hflow hsecret hdestination =>
        exact .secretToExternal flow hflow hsecret hdestination
    | productionDestructive hrisk hproduction => exact .productionDestructive hrisk hproduction
    | systemCritical r hr hclass hrisk => exact .systemCritical r hr hclass hrisk
    | untrustedAuthority horigin segment hsegment hauthority =>
        exact .untrustedAuthority horigin segment hsegment hauthority
  · intro h
    cases h with
    | secretToExternal flow hflow hsecret hdestination =>
        exact ⟨_, .secretToExternal flow hflow hsecret hdestination⟩
    | productionDestructive hrisk hproduction =>
        exact ⟨_, .productionDestructive hrisk hproduction⟩
    | systemCritical r hr hclass hrisk => exact ⟨_, .systemCritical r hr hclass hrisk⟩
    | untrustedAuthority horigin segment hsegment hauthority =>
        exact ⟨_, .untrustedAuthority horigin segment hsegment hauthority⟩

/-- Each check of the engine that fires is an immutable rule that applies under its identifier. -/
theorem appliesAs_of_checks :
    (secretToExternal p = true → AppliesAs c p "immutable.secret-to-external") ∧
    (productionDestructive c p = true → AppliesAs c p "immutable.production-destructive") ∧
    (systemCriticalRisk c p = true → AppliesAs c p "immutable.system-critical") ∧
    ((untrustedOrigin p.context.origin && authorityCapability c.id) = true →
      AppliesAs c p "immutable.untrusted-authority-mutation") := by
  simp only [Engine.secretToExternal, Engine.productionDestructive, systemCriticalRisk,
    Bool.and_eq_true, Bool.or_eq_true, beq_iff_eq, Option.any_eq_true, hasResource_iff,
    authorityCapability_iff, untrustedOrigin_iff]
  refine ⟨?_, ?_, ?_, ?_⟩
  · rintro ⟨flow, hflow, hsecret, hdestination⟩
    exact .secretToExternal flow hflow hsecret hdestination
  · rintro ⟨hrisk, hproduction⟩
    exact .productionDestructive hrisk hproduction
  · rintro ⟨⟨r, hr, hclass⟩, hrisk⟩
    exact .systemCritical r hr hclass (or_assoc.mp hrisk)
  · rintro ⟨horigin, segment, hsegment, hauthority⟩
    exact .untrustedAuthority horigin segment hsegment hauthority

/-- A valid proposal that lacks a scope is denied for that, and not as a hard denial. -/
theorem decide_of_missing_scope (hc : c.validate = .ok ()) (hp : p.context.validate = .ok ())
    {scope : ScopeRequirement} (hscope : ctx.missingScope c = some scope) :
    engine.decide c p ctx = denial (.missingScope scope) "core.missing-scope" false := by
  have hcValid : c.isValid = true := (capability_isValid_iff c).mpr hc
  have hpValid : p.context.isValid = true := (context_isValid_iff p.context).mpr hp
  unfold PolicyEngine.decide denials
  simp [hcValid, hpValid, hscope]

/-- Where no scope is missing, an immutable rule that applies decides. -/
theorem decide_of_immutable (hc : c.validate = .ok ()) (hp : p.context.validate = .ok ())
    (hscopes : ctx.missingScope c = none) (himmutable : ImmutableRule c p) :
    ∃ reason id, AppliesAs c p id ∧ engine.decide c p ctx = denial reason id true := by
  have hcValid : c.isValid = true := (capability_isValid_iff c).mpr hc
  have hpValid : p.context.isValid = true := (context_isValid_iff p.context).mpr hp
  obtain ⟨hsecret, hproduction, hcritical, huntrusted⟩ := appliesAs_of_checks c p
  rw [immutableRule_iff] at himmutable
  unfold PolicyEngine.decide denials
  simp only [hcValid, hpValid, hscopes, Bool.not_true, rule_false, Option.map_none,
    firstRule_cons_none]
  -- The first of the four checks that fires gives the decision.
  by_cases h₁ : Engine.secretToExternal p = true
  · exact ⟨.immutableSecretExfiltrationDeny, _, hsecret h₁, by simp [h₁]⟩
  by_cases h₂ : Engine.productionDestructive c p = true
  · exact ⟨.immutableProductionDestructiveDeny, _, hproduction h₂, by simp [h₁, h₂]⟩
  by_cases h₃ : systemCriticalRisk c p = true
  · exact ⟨.immutableSystemCriticalDeny, _, hcritical h₃, by simp [h₁, h₂, h₃]⟩
  by_cases h₄ : (untrustedOrigin p.context.origin && authorityCapability c.id) = true
  · exact ⟨.untrustedAuthorityMutationDenied, _, huntrusted h₄, by simp [h₁, h₂, h₃, h₄]⟩
  · simp [h₁, h₂, h₃, h₄] at himmutable

/-- The decision is a hard denial under the identifier of an immutable rule that applies. -/
def DeniedImmutably (d : PolicyDecision) : Prop :=
  d.outcome = .deny ∧ d.hardDeny = true ∧ AppliesAs c p d.ruleId

end Precedence

/-- For a valid descriptor and a valid context, an immutable rule that applies is what answers
exactly when every scope that the capability requires is granted. -/
theorem immutable_answers_iff (engine : PolicyEngine) (c : CapabilityDescriptor)
    (p : ActionProposal) (ctx : PolicyContext) (hc : c.validate = .ok ())
    (hp : p.context.validate = .ok ()) (himmutable : ∃ id, AppliesAs c p id) :
    DeniedImmutably c p (engine.decide c p ctx) ↔
      ∀ scope ∈ c.scopeRequirements, scope ∈ ctx.grantedScopes := by
  rw [← missingScope_eq_none_iff]
  constructor
  · rintro ⟨-, hhard, -⟩
    cases hscope : ctx.missingScope c with
    | none => rfl
    | some scope =>
        rw [decide_of_missing_scope engine c p ctx hc hp hscope] at hhard
        cases hhard
  · intro hscopes
    obtain ⟨reason, id, happlies, heq⟩ := decide_of_immutable engine c p ctx hc hp hscopes
      ((exists_appliesAs_iff c p).mp himmutable)
    rw [heq]
    exact ⟨rfl, rfl, happlies⟩

/-! ## A hard denial that a missing scope hides -/

/-- The application launcher, with a scope that has to be granted. -/
def scopedLauncher : CapabilityDescriptor :=
  { openAppDescriptor with scopeRequirements := [.named "applications"] }

/-- Launch by the user that sends secret data to an external destination. -/
def secretLaunch : ActionProposal where
  action := ⟨scopedLauncher.id, .openApp ⟨"app:telegram", validate_telegram⟩⟩
  context := { ActionContext.trustedUser none with
    dataFlow := some ⟨⟨.file, "file:keys", .secret⟩, .secret, .external⟩ }

theorem appliesAs_secretLaunch :
    AppliesAs scopedLauncher secretLaunch "immutable.secret-to-external" :=
  .secretToExternal ⟨⟨.file, "file:keys", .secret⟩, .secret, .external⟩ rfl (.inl rfl) (.inl rfl)

theorem immutable_answers_secretLaunch :
    DeniedImmutably scopedLauncher secretLaunch
        (PolicyEngine.new.decide scopedLauncher secretLaunch .default) ↔
      ∀ scope ∈ scopedLauncher.scopeRequirements, scope ∈ PolicyContext.default.grantedScopes :=
  immutable_answers_iff .new scopedLauncher secretLaunch .default (by decide) (by decide)
    ⟨_, appliesAs_secretLaunch⟩

/-- The secret flow is denied for the missing scope only, and not as a hard denial. -/
theorem hard_denial_hidden :
    ¬ ∀ (engine : PolicyEngine) (c : CapabilityDescriptor) (p : ActionProposal)
      (ctx : PolicyContext), c.validate = .ok () → p.context.validate = .ok () →
      (∃ id, AppliesAs c p id) → DeniedImmutably c p (engine.decide c p ctx) := by
  intro h
  obtain ⟨-, hhard, -⟩ := h .new scopedLauncher secretLaunch .default (by decide) (by decide)
    ⟨_, appliesAs_secretLaunch⟩
  have hscope :
      PolicyContext.default.missingScope scopedLauncher = some (.named "applications") := by
    decide
  rw [decide_of_missing_scope _ _ _ _ (by decide) (by decide) hscope] at hhard
  cases hhard

end Halquen.Policy.Precedence
