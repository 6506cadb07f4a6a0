import Halquen.Policy.Authorization

/-!
# Raising the classification of a resource

A resource can be reclassified upwards, or a resource can be added to a proposal. One would expect
that neither makes the policy outcome more permissive. The baseline asks for a confirmation for
sensitive, secret and production resources but not for system-critical ones, so raising the only
such resource of a proposal to system-critical may lose the confirmation.
`outcome_change_le_iff` says exactly when this happens; `raise_loses_confirmation` is an instance
with the built-in application launcher.
-/

set_option autoImplicit false

namespace Halquen.Policy.Classification

open Halquen.Domain.Ids Halquen.Domain.Capability Halquen.Domain.Security
open Halquen.Library.Rules Halquen.Policy.Engine Halquen.Policy.Specification

/-- Position of an outcome in the order of permissiveness. -/
def PolicyOutcome.permissiveness : PolicyOutcome → Nat
  | .deny => 0
  | .confirm => 1
  | .allow => 2

/-- Outcomes ordered by what they permit: Deny, then Confirm, then Allow. -/
instance : LinearOrder PolicyOutcome :=
  LinearOrder.lift' PolicyOutcome.permissiveness (by
    intro a b h
    cases a <;> cases b <;> first | rfl | simp [PolicyOutcome.permissiveness] at h)

theorem outcome_le_iff (a b : PolicyOutcome) :
    a ≤ b ↔ (b = .deny → a = .deny) ∧ (a = .allow → b = .allow) := by
  cases a <;> cases b <;> decide

/-- A change of a proposal's resources: one of them gets a higher class, or one is added. -/
inductive ResourceChange where
  | raise (pre : List ResourceDescriptor) (r : ResourceDescriptor)
      (post : List ResourceDescriptor) (cls : ResourceClassification)
      (higher : r.classification < cls)
  | add (pre : List ResourceDescriptor) (r : ResourceDescriptor) (post : List ResourceDescriptor)

/-- Resources that the change applies to. -/
def ResourceChange.before : ResourceChange → List ResourceDescriptor
  | .raise pre r post _ _ => pre ++ r :: post
  | .add pre _ post => pre ++ post

/-- Resources after the change. -/
def ResourceChange.after : ResourceChange → List ResourceDescriptor
  | .raise pre r post cls _ => pre ++ { r with classification := cls } :: post
  | .add pre r post => pre ++ r :: post

/-- The proposal with other resources. -/
def withResources (p : ActionProposal) (resources : List ResourceDescriptor) : ActionProposal :=
  { p with context := { p.context with resources := resources } }

/-- Classes for which the baseline asks for a confirmation. -/
def confirmedClass (cls : ResourceClassification) : Prop :=
  cls = .sensitive ∨ cls = .secret ∨ cls = .production

/-- The change takes the last resource of a confirmed class to system-critical. -/
def ResourceChange.LosesLastConfirmed : ResourceChange → Prop
  | .raise pre r post cls _ =>
      cls = .systemCritical ∧ confirmedClass r.classification ∧
        ∀ other ∈ pre ++ post, ¬ confirmedClass other.classification
  | .add _ _ _ => False

/-- Apart from its resources, nothing about the proposal is denied or needs a confirmation. -/
structure ClearApartFromResources (engine : PolicyEngine) (c : CapabilityDescriptor)
    (p : ActionProposal) (ctx : PolicyContext) : Prop where
  scopes : ∀ scope ∈ c.scopeRequirements, scope ∈ ctx.grantedScopes
  no_secret_flow : secretToExternal p = false
  no_authority_mutation : (untrustedOrigin p.context.origin && authorityCapability c.id) = false
  low_risk : c.risk = .readOnly ∨ c.risk = .localSideEffect ∨
    c.risk = .reversibleLocalWrite ∧ engine.allowReversibleLocalWrites = true
  not_agent : (p.context.origin == .agent && c.sideEffect) = false
  not_strict : (ctx.profile == .strict && c.sideEffect) = false
  not_always : c.confirmation ≠ .always

section Resources

variable (change : ResourceChange)

/-- Every class of the old resources survives the change, or was raised. -/
theorem systemCritical_after (h : ∃ r ∈ change.before, r.classification = .systemCritical) :
    ∃ r ∈ change.after, r.classification = .systemCritical := by
  obtain ⟨s, hs, hclass⟩ := h
  cases change with
  | raise pre r post cls higher =>
      simp only [ResourceChange.before, List.mem_append, List.mem_cons] at hs
      rcases hs with hs | rfl | hs
      · exact ⟨s, by simp [ResourceChange.after, hs], hclass⟩
      · rw [hclass] at higher
        exact absurd higher (by cases cls <;> decide)
      · exact ⟨s, by simp [ResourceChange.after, hs], hclass⟩
  | add pre r post =>
      refine ⟨s, ?_, hclass⟩
      simp only [ResourceChange.before, ResourceChange.after, List.mem_append, List.mem_cons]
        at hs ⊢
      rcases hs with hs | hs
      · exact .inl hs
      · exact .inr (.inr hs)

theorem confirmedClass_of_lt {a b : ResourceClassification} (h : a < b) (ha : confirmedClass a) :
    confirmedClass b ∨ b = .systemCritical := by
  rcases ha with rfl | rfl | rfl <;> cases b <;> revert h <;> unfold confirmedClass <;> decide

/-- Old resources of a confirmed class leave one behind, unless the change loses the last one; and
then the changed proposal has a system-critical resource. -/
theorem confirmed_after (h : ∃ r ∈ change.before, confirmedClass r.classification) :
    (∃ r ∈ change.after, confirmedClass r.classification) ∨
      change.LosesLastConfirmed ∧ ∃ r ∈ change.after, r.classification = .systemCritical := by
  obtain ⟨s, hs, hclass⟩ := h
  cases change with
  | raise pre r post cls higher =>
      -- Another resource of a confirmed class is still there; otherwise the raised one was the
      -- last.
      by_cases hother : ∃ other ∈ pre ++ post, confirmedClass other.classification
      · obtain ⟨other, hmem, hconfirmed⟩ := hother
        refine .inl ⟨other, ?_, hconfirmed⟩
        simp only [ResourceChange.after, List.mem_append, List.mem_cons] at hmem ⊢
        rcases hmem with hmem | hmem
        · exact .inl hmem
        · exact .inr (.inr hmem)
      · simp only [not_exists, not_and] at hother
        have hsr : s = r := by
          simp only [ResourceChange.before, List.mem_append, List.mem_cons] at hs
          rcases hs with hs | hs | hs
          · exact absurd hclass (hother s (by simp [hs]))
          · exact hs
          · exact absurd hclass (hother s (by simp [hs]))
        subst hsr
        have hnew : { s with classification := cls } ∈
            ResourceChange.after (.raise pre s post cls higher) := by
          simp [ResourceChange.after]
        rcases confirmedClass_of_lt higher hclass with hcls | hcls
        · exact .inl ⟨_, hnew, hcls⟩
        · exact .inr ⟨⟨hcls, hclass, hother⟩, _, hnew, hcls⟩
  | add pre r post =>
      refine .inl ⟨s, ?_, hclass⟩
      simp only [ResourceChange.before, ResourceChange.after, List.mem_append, List.mem_cons]
        at hs ⊢
      rcases hs with hs | hs
      · exact .inl hs
      · exact .inr (.inr hs)

/-- After a change that loses the last confirmed class, none is left. -/
theorem not_confirmed_after (h : change.LosesLastConfirmed) :
    ¬ ∃ r ∈ change.after, confirmedClass r.classification := by
  cases change with
  | raise pre r post cls higher =>
      obtain ⟨rfl, -, hother⟩ := h
      rintro ⟨s, hs, hclass⟩
      simp only [ResourceChange.after, List.mem_append, List.mem_cons] at hs
      rcases hs with hs | rfl | hs
      · exact hother s (by simp [hs]) hclass
      · simp [confirmedClass] at hclass
      · exact hother s (by simp [hs]) hclass
  | add pre r post => exact absurd h id

theorem confirmed_before (h : change.LosesLastConfirmed) :
    ∃ r ∈ change.before, confirmedClass r.classification := by
  cases change with
  | raise pre r post cls higher => exact ⟨r, by simp [ResourceChange.before], h.2.1⟩
  | add pre r post => exact absurd h id

/-- Raising a class keeps identifiers and their number, hence validity. -/
theorem validate_after (context : ActionContext) (hbefore : context.resources = change.before)
    (hloses : change.LosesLastConfirmed) :
    { context with resources := change.after }.validate = context.validate := by
  cases change with
  | raise pre r post cls higher =>
      simp [ActionContext.validate, hbefore, ResourceChange.before, ResourceChange.after,
        ActionContext.originFailure]
  | add pre r post => exact absurd hloses id

/-- A production resource stays one or becomes system-critical. -/
theorem production_after (h : ∃ r ∈ change.before, r.classification = .production) :
    (∃ r ∈ change.after, r.classification = .production) ∨
      ∃ r ∈ change.after, r.classification = .systemCritical := by
  obtain ⟨s, hs, hclass⟩ := h
  cases change with
  | raise pre r post cls higher =>
      simp only [ResourceChange.before, List.mem_append, List.mem_cons] at hs
      rcases hs with hs | rfl | hs
      · exact .inl ⟨s, by simp [ResourceChange.after, hs], hclass⟩
      · have hcls : cls = .systemCritical := by
          rw [hclass] at higher
          revert higher
          cases cls <;> decide
        exact .inr ⟨{ s with classification := cls }, by simp [ResourceChange.after], hcls⟩
      · exact .inl ⟨s, by simp [ResourceChange.after, hs], hclass⟩
  | add pre r post =>
      refine .inl ⟨s, ?_, hclass⟩
      simp only [ResourceChange.before, ResourceChange.after, List.mem_append, List.mem_cons]
        at hs ⊢
      rcases hs with hs | hs
      · exact .inl hs
      · exact .inr (.inr hs)

end Resources

/-! ## Outcomes -/

section Outcomes

variable (engine : PolicyEngine) (c : CapabilityDescriptor) (p : ActionProposal)
  (ctx : PolicyContext)

theorem outcome_riskBaseline_eq_allow_iff (risk : RiskClass) :
    (engine.riskBaseline risk).outcome = .allow ↔ risk = .readOnly ∨ risk = .localSideEffect ∨
      risk = .reversibleLocalWrite ∧ engine.allowReversibleLocalWrites = true := by
  cases risk <;> simp [PolicyEngine.riskBaseline, allow, confirmation, denial]
  split <;> simp_all

/-- The baseline allows a low-risk proposal without confirmed resources and without any other
reason for a confirmation. -/
theorem outcome_baseline_eq_allow_iff (profile : SecurityProfile) :
    (engine.baseline c p profile).outcome = .allow ↔
      (¬ ∃ r ∈ p.context.resources, confirmedClass r.classification) ∧
        (p.context.origin == .agent && c.sideEffect) = false ∧
        (profile == .strict && c.sideEffect) = false ∧ c.confirmation ≠ .always ∧
        (c.risk = .readOnly ∨ c.risk = .localSideEffect ∨
          c.risk = .reversibleLocalWrite ∧ engine.allowReversibleLocalWrites = true) := by
  unfold PolicyEngine.baseline
  rw [firstRule_forall_iff _ (fun d : PolicyDecision => d.outcome = .allow)]
  -- No rule before the one for the risk may speak, and that one has to allow.
  · have hconfirmed : (hasResource p .production = false ∧
        (p.context.resources.any fun r =>
          r.classification == .sensitive || r.classification == .secret) = false) ↔
        ¬ ∃ r ∈ p.context.resources, confirmedClass r.classification := by
      simp only [hasResource, List.any_eq_false, confirmedClass, not_exists, not_and]
      constructor
      · rintro ⟨hprod, hsens⟩ r hr hclass
        rcases hclass with hclass | hclass | hclass
        · exact hsens r hr (by simp [hclass])
        · exact hsens r hr (by simp [hclass])
        · exact hprod r hr (by simp [hclass])
      · intro h
        refine ⟨fun r hr hclass => h r hr ?_, fun r hr hclass => h r hr ?_⟩
        · exact .inr (.inr (beq_iff_eq.mp hclass))
        · simp only [Bool.or_eq_true, beq_iff_eq] at hclass
          exact hclass.imp id Or.inl
    simp only [silent_cons, silent_nil, rule_eq_none_iff, beq_eq_false_iff_ne, and_true]
    rw [outcome_riskBaseline_eq_allow_iff, ← hconfirmed]
    simp only [and_assoc]
  -- The other rules ask for confirmation.
  · intro d hd
    simp only [List.mem_cons, List.not_mem_nil, or_false, @eq_comm _ (some d),
      rule_eq_some_iff] at hd
    rcases hd with ⟨-, rfl⟩ | ⟨-, rfl⟩ | ⟨-, rfl⟩ | ⟨-, rfl⟩ | ⟨-, rfl⟩ <;> simp [confirmation]

variable {p ctx} {change : ResourceChange} (hbefore : p.context.resources = change.before)
  (hgrants : ctx.permissionGrants = [])

include hbefore in
/-- An immutable rule that applies keeps applying. -/
theorem immutableRule_after (h : ImmutableRule c p) :
    ImmutableRule c (withResources p change.after) := by
  cases h with
  | secretToExternal flow hflow hsecret hdestination =>
      exact .secretToExternal flow hflow hsecret hdestination
  | productionDestructive hrisk hproduction =>
      rcases hproduction with hproduction | hproduction
      · rw [hbefore] at hproduction
        rcases production_after change hproduction with h | ⟨r, hr, hclass⟩
        · exact .productionDestructive hrisk (.inl h)
        · exact .systemCritical r hr hclass (.inl hrisk)
      · exact .productionDestructive hrisk (.inr hproduction)
  | systemCritical r hr hclass hrisk =>
      rw [hbefore] at hr
      obtain ⟨s, hs, hsclass⟩ := systemCritical_after change ⟨r, hr, hclass⟩
      exact .systemCritical s hs hsclass hrisk
  | untrustedAuthority horigin segment hsegment hauthority =>
      exact .untrustedAuthority horigin segment hsegment hauthority

include hgrants in
theorem not_exactGrant (q : ActionProposal) (effect : PermissionEffect) :
    ¬ ∃ g, ExactGrant ctx q effect g := by
  rintro ⟨g, hg⟩
  have hmem := hg.mem
  simp [hgrants] at hmem

include hbefore hgrants in
theorem unobstructed_of_after (hp : p.context.validate = .ok ())
    (h : Unobstructed c (withResources p change.after) ctx) : Unobstructed c p ctx where
  descriptor := h.descriptor
  provenance := hp
  scopes := h.scopes
  immutable := fun himm => h.immutable (immutableRule_after c hbefore himm)
  not_denied := not_exactGrant hgrants p .deny
  not_privileged := h.not_privileged
  not_unknown := h.not_unknown

include hbefore hgrants in
/-- The changed proposal is allowed where the change loses the last confirmed class and nothing
else stands in the way. -/
theorem unobstructed_after_of_loses (hc : c.validate = .ok ()) (hp : p.context.validate = .ok ())
    (hloses : change.LosesLastConfirmed) (hclear : ClearApartFromResources engine c p ctx) :
    Unobstructed c (withResources p change.after) ctx where
  descriptor := hc
  provenance := (validate_after change p.context hbefore hloses).trans hp
  scopes := hclear.scopes
  immutable := by
    have hnone := not_confirmed_after change hloses
    have hrisk := hclear.low_risk
    intro himm
    -- Three of the immutable rules do not look at resources; a risk this low excludes the fourth.
    cases himm with
    | secretToExternal flow hflow hsecret hdestination =>
        have hclean := hclear.no_secret_flow
        rw [secretToExternal, Option.any_eq_false] at hclean
        have hflowClean := hclean flow hflow
        simp only [Bool.and_eq_false_iff, Bool.or_eq_false_iff, beq_eq_false_iff_ne] at hflowClean
        rcases hflowClean with ⟨h1, h2⟩ | ⟨h1, h2⟩
        · exact hsecret.elim h1 h2
        · exact hdestination.elim h1 h2
    | productionDestructive hdestructive hproduction => simp [hdestructive] at hrisk
    | systemCritical r hr hclass hhigh => rcases hhigh with h | h | h <;> simp [h] at hrisk
    | untrustedAuthority horigin segment hsegment hauthority =>
        have h := hclear.no_authority_mutation
        rw [Bool.and_eq_false_iff] at h
        rcases h with h | h
        · rw [← Bool.not_eq_true, untrustedOrigin_iff] at h
          exact h horigin
        · rw [← Bool.not_eq_true, authorityCapability_iff] at h
          exact h ⟨segment, hsegment, hauthority⟩
  not_denied := not_exactGrant hgrants _ .deny
  not_privileged := by
    intro h
    have hrisk := hclear.low_risk
    simp [h] at hrisk
  not_unknown := by
    intro h
    have hrisk := hclear.low_risk
    simp [h] at hrisk

/-- Without grants, a changed proposal is at most as permissive as before, except where the change
takes the last resource of a confirmed class to system-critical and nothing apart from the
resources is denied or needs a confirmation. -/
theorem outcome_change_le_iff (engine : PolicyEngine) (c : CapabilityDescriptor)
    (p : ActionProposal) (ctx : PolicyContext) (change : ResourceChange)
    (hc : c.validate = .ok ()) (hp : p.context.validate = .ok ())
    (hgrants : ctx.permissionGrants = []) (hbefore : p.context.resources = change.before) :
    (engine.decide c (withResources p change.after) ctx).outcome ≤
        (engine.decide c p ctx).outcome ↔
      ¬ (change.LosesLastConfirmed ∧ ClearApartFromResources engine c p ctx) := by
  have hnoGrant (q : ActionProposal) : ¬ ∃ g, ExactGrant ctx q .allow g :=
    not_exactGrant hgrants q .allow
  have hallow (q : ActionProposal) : (engine.decide c q ctx).outcome = .allow ↔
      Unobstructed c q ctx ∧ (engine.baseline c q ctx.profile).outcome = .allow := by
    rw [outcome_decide_eq_allow_iff]
    simp [hnoGrant q]
  rw [outcome_le_iff, outcome_decide_eq_deny_iff, outcome_decide_eq_deny_iff, hallow, hallow]
  constructor
  -- After the last confirmed class is lost, nothing is left that would not allow.
  · rintro ⟨-, hkeep⟩ ⟨hloses, hclear⟩
    have hafter : Unobstructed c (withResources p change.after) ctx :=
      unobstructed_after_of_loses engine c hbefore hgrants hc hp hloses hclear
    have hbaseline : (engine.baseline c (withResources p change.after) ctx.profile).outcome
        = .allow := by
      rw [outcome_baseline_eq_allow_iff]
      exact ⟨not_confirmed_after change hloses, hclear.not_agent, hclear.not_strict,
        hclear.not_always, hclear.low_risk⟩
    have hp' := (hkeep ⟨hafter, hbaseline⟩).2
    rw [outcome_baseline_eq_allow_iff, hbefore] at hp'
    exact hp'.1 (confirmed_before change hloses)
  -- What is allowed afterwards was allowed before, unless such a class was lost.
  · intro hnot
    refine ⟨fun hobs hafter => hobs (unobstructed_of_after c hbefore hgrants hp hafter), ?_⟩
    rintro ⟨hafter, hbaseline⟩
    rw [outcome_baseline_eq_allow_iff] at hbaseline
    obtain ⟨hnone, hagent, hstrict, halways, hrisk⟩ := hbaseline
    refine ⟨unobstructed_of_after c hbefore hgrants hp hafter, ?_⟩
    rw [outcome_baseline_eq_allow_iff, hbefore]
    refine ⟨fun hconfirmed => ?_, hagent, hstrict, halways, hrisk⟩
    rcases confirmed_after change hconfirmed with h | ⟨hloses, -⟩
    · exact hnone h
    · have hclean := (immutableRule_iff c (withResources p change.after)).not.mp hafter.immutable
      simp only [not_or, Bool.not_eq_true] at hclean
      exact hnot ⟨hloses, hafter.scopes, hclean.1, hclean.2.2.2, hrisk, hagent, hstrict, halways⟩

end Outcomes

/-! ## The launcher loses its confirmation -/

/-- Launch of an application that is labelled sensitive. -/
def launchSensitive : ActionProposal where
  action := ⟨openAppDescriptor.id, .openApp ⟨"app:telegram", validate_telegram⟩⟩
  context := (ActionContext.trustedUser none).withResource
    ⟨.application, "app:telegram", .sensitive⟩

/-- Relabelling of the application from sensitive to system-critical. -/
def relabelSystemCritical : ResourceChange :=
  .raise [] ⟨.application, "app:telegram", .sensitive⟩ [] .systemCritical (by decide)

theorem outcome_change_le_launchSensitive :
    (PolicyEngine.new.decide openAppDescriptor
        (withResources launchSensitive relabelSystemCritical.after) .default).outcome ≤
        (PolicyEngine.new.decide openAppDescriptor launchSensitive .default).outcome ↔
      ¬ (relabelSystemCritical.LosesLastConfirmed ∧
        ClearApartFromResources .new openAppDescriptor launchSensitive .default) :=
  outcome_change_le_iff .new openAppDescriptor launchSensitive .default relabelSystemCritical
    openAppDescriptor_validate (by decide) rfl rfl

/-- Raising a resource is not monotone: the launch needs a confirmation while the application is
sensitive and none once it is system-critical. -/
theorem raise_loses_confirmation :
    ¬ ∀ (engine : PolicyEngine) (c : CapabilityDescriptor) (p : ActionProposal)
      (ctx : PolicyContext) (change : ResourceChange), c.validate = .ok () →
      p.context.validate = .ok () → ctx.permissionGrants = [] →
      p.context.resources = change.before →
      (engine.decide c (withResources p change.after) ctx).outcome ≤
        (engine.decide c p ctx).outcome := by
  intro h
  have hle := h .new openAppDescriptor launchSensitive .default relabelSystemCritical
    openAppDescriptor_validate (by decide) rfl rfl
  have hbefore : (PolicyEngine.new.decide openAppDescriptor launchSensitive .default).outcome
      = .confirm := by decide
  have hafter : (PolicyEngine.new.decide openAppDescriptor
      (withResources launchSensitive relabelSystemCritical.after) .default).outcome
      = .allow := by decide
  rw [hbefore, hafter] at hle
  exact absurd hle (by decide)

end Halquen.Policy.Classification
