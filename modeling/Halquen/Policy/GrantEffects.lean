import Halquen.Policy.Classification

/-!
# What a grant does to a decision

A grant speaks to a proposal when it is active in the context and its scope is exactly the
proposal's. Whatever rule of the engine decides, an Allow grant that speaks to the proposal only
lifts a Confirm, a Deny grant that speaks to it only denies, and a grant that does not speak to it
changes nothing: outcome and reason are a function of the grants that do, in any order
(`grant_effects`). The same comparison of two contexts shows that the Strict profile never permits
more than another one.
-/

set_option autoImplicit false

namespace Halquen.Policy.GrantEffects

open Halquen.Domain.Ids Halquen.Domain.Capability Halquen.Domain.Security
open Halquen.Policy.Engine Halquen.Policy.Specification Halquen.Policy.Classification

/-- The grant is active in the context and covers exactly the proposal. -/
def Speaks (ctx : PolicyContext) (p : ActionProposal) (g : PermissionGrant) : Prop :=
  g.isActive ctx.nowMs ctx.session ctx.agentId = true ∧ g.scope = PermissionScope.fromProposal p

instance decidableSpeaks (ctx : PolicyContext) (p : ActionProposal) (g : PermissionGrant) :
    Decidable (Speaks ctx p g) :=
  inferInstanceAs (Decidable (_ ∧ _))

section Lookup

variable (ctx : PolicyContext) (p : ActionProposal)

/-- Exact grants of a context are the grants of it that speak to the proposal. -/
theorem exists_exactGrant_iff (effect : PermissionEffect) :
    (∃ g, ExactGrant ctx p effect g) ↔
      ∃ g ∈ ctx.permissionGrants, g.effect = effect ∧ Speaks ctx p g := by
  constructor
  · rintro ⟨g, h⟩
    exact ⟨g, h.mem, h.effect_eq, h.active, h.scope_eq⟩
  · rintro ⟨g, hmem, heffect, hactive, hscope⟩
    exact ⟨g, hmem, heffect, hactive, hscope⟩

/-- Adding a grant adds an exact grant when it speaks to the proposal. -/
theorem exists_exactGrant_add_iff (g : PermissionGrant) (effect : PermissionEffect) :
    (∃ g', ExactGrant (ctx.addPermissionGrant g) p effect g') ↔
      (∃ g', ExactGrant ctx p effect g') ∨ g.effect = effect ∧ Speaks ctx p g := by
  rw [exists_exactGrant_iff, exists_exactGrant_iff]
  constructor
  · rintro ⟨g', hmem, heffect, hspeaks⟩
    simp only [PolicyContext.addPermissionGrant, List.mem_append, List.mem_singleton] at hmem
    rcases hmem with hmem | rfl
    · exact .inl ⟨g', hmem, heffect, hspeaks⟩
    · exact .inr ⟨heffect, hspeaks⟩
  · rintro (⟨g', hmem, heffect, hspeaks⟩ | ⟨heffect, hspeaks⟩)
    · exact ⟨g', List.mem_append_left [g] hmem, heffect, hspeaks⟩
    · have hmem : g ∈ ctx.permissionGrants ++ [g] := by simp
      exact ⟨g, hmem, heffect, hspeaks⟩

end Lookup

section Effects

variable (engine : PolicyEngine) (c : CapabilityDescriptor) (p : ActionProposal)
  (ctx : PolicyContext)

/-- An added grant obstructs exactly when it denies and speaks to the proposal. -/
theorem unobstructed_add_iff (g : PermissionGrant) :
    Unobstructed c p (ctx.addPermissionGrant g) ↔
      Unobstructed c p ctx ∧ ¬ (g.effect = .deny ∧ Speaks ctx p g) := by
  constructor
  · intro h
    have hdenied := h.not_denied
    rw [exists_exactGrant_add_iff, not_or] at hdenied
    exact ⟨⟨h.descriptor, h.provenance, h.scopes, h.immutable, hdenied.1, h.not_privileged,
      h.not_unknown⟩, hdenied.2⟩
  · rintro ⟨h, hspeaks⟩
    refine ⟨h.descriptor, h.provenance, h.scopes, h.immutable, ?_, h.not_privileged,
      h.not_unknown⟩
    rw [exists_exactGrant_add_iff]
    exact not_or.mpr ⟨h.not_denied, hspeaks⟩

/-- A grant that does not speak to the proposal changes neither outcome nor reason. -/
theorem verdict_add_of_not_speaks (g : PermissionGrant) (h : ¬ Speaks ctx p g) :
    verdict (engine.decide c p (ctx.addPermissionGrant g)) = verdict (engine.decide c p ctx) := by
  have hsame (effect : PermissionEffect) :
      (∃ g', ExactGrant (ctx.addPermissionGrant g) p effect g') ↔
        ∃ g', ExactGrant ctx p effect g' := by
    rw [exists_exactGrant_add_iff]
    simp [h]
  apply verdict_decide_congr engine c p ctx (ctx.permissionGrants ++ [g]) ctx.permissionGrants
  · exact hsame .deny
  · intro _
    exact hsame .allow

/-- What an added Allow grant does, by the outcome before. -/
theorem effect_of_allow (g : PermissionGrant) (hallow : g.effect = .allow) :
    ((engine.decide c p ctx).outcome = .deny →
      verdict (engine.decide c p (ctx.addPermissionGrant g)) = verdict (engine.decide c p ctx)) ∧
    ((engine.decide c p ctx).outcome = .allow →
      (engine.decide c p (ctx.addPermissionGrant g)).outcome = .allow) ∧
    ((engine.decide c p ctx).outcome = .confirm →
      ((engine.decide c p (ctx.addPermissionGrant g)).outcome = .allow ↔ Speaks ctx p g)) := by
  have hnotDeny : g.effect ≠ .deny := by simp [hallow]
  have hfree : Unobstructed c p (ctx.addPermissionGrant g) ↔ Unobstructed c p ctx := by
    rw [unobstructed_add_iff]
    simp [hnotDeny]
  have hexact := exists_exactGrant_add_iff ctx p g .allow
  refine ⟨?_, ?_, ?_⟩
  · intro hdenied
    rw [outcome_decide_eq_deny_iff] at hdenied
    symm
    -- What denies is not the grants: the same denials speak with the new one.
    apply verdict_decide_of_obstructed engine c p ctx ctx.permissionGrants
      (ctx.permissionGrants ++ [g])
    · have hdeny := exists_exactGrant_add_iff ctx p g .deny
      simp only [hnotDeny, false_and, or_false] at hdeny
      exact hdeny.symm
    · exact hdenied
  -- What allowed before still does.
  · intro hallowed
    rw [outcome_decide_eq_allow_iff] at hallowed ⊢
    obtain ⟨hunobstructed, hbaseline⟩ := hallowed
    refine ⟨hfree.mpr hunobstructed, ?_⟩
    rcases hbaseline with hbaseline | ⟨hconfirm, hgrant⟩
    · exact .inl hbaseline
    · exact .inr ⟨hconfirm, hexact.mpr (.inl hgrant)⟩
  -- Where a confirmation was asked for, only an exact grant turns it into permission.
  · intro hconfirmed
    have hunobstructed : Unobstructed c p ctx := by
      by_contra hobstructed
      rw [← outcome_decide_eq_deny_iff engine, hconfirmed] at hobstructed
      cases hobstructed
    have hnotAllowed : (engine.decide c p ctx).outcome ≠ .allow := by simp [hconfirmed]
    rw [Ne, outcome_decide_eq_allow_iff] at hnotAllowed
    constructor
    · intro hallowed
      by_contra hsilent
      have hverdict := verdict_add_of_not_speaks engine c p ctx g hsilent
      have houtcome := congrArg Prod.fst hverdict
      simp only [verdict, hallowed, hconfirmed] at houtcome
      cases houtcome
    · intro hspeaks
      rw [outcome_decide_eq_allow_iff]
      refine ⟨hfree.mpr hunobstructed, .inr ⟨?_, hexact.mpr (.inr ⟨hallow, hspeaks⟩)⟩⟩
      -- An unobstructed baseline that does not allow asks for a confirmation.
      have hnotDenied := outcome_baseline_ne_deny engine c p ctx.profile
        hunobstructed.not_privileged hunobstructed.not_unknown
      change (engine.baseline c p ctx.profile).outcome = .confirm
      cases hbaseline : (engine.baseline c p ctx.profile).outcome with
      | allow => exact absurd ⟨hunobstructed, .inl hbaseline⟩ hnotAllowed
      | confirm => rfl
      | deny => exact absurd hbaseline hnotDenied

/-- What an added Deny grant does: it denies, or nothing. -/
theorem effect_of_deny (g : PermissionGrant) (hdeny : g.effect = .deny)
    (hchanged : (engine.decide c p (ctx.addPermissionGrant g)).outcome ≠
      (engine.decide c p ctx).outcome) :
    Speaks ctx p g ∧ (engine.decide c p (ctx.addPermissionGrant g)).outcome = .deny := by
  have hspeaks : Speaks ctx p g := by
    by_contra hsilent
    exact hchanged (congrArg Prod.fst (verdict_add_of_not_speaks engine c p ctx g hsilent))
  refine ⟨hspeaks, ?_⟩
  rw [outcome_decide_eq_deny_iff, unobstructed_add_iff]
  rintro ⟨-, hnone⟩
  exact hnone ⟨hdeny, hspeaks⟩

/-- Only the grants that speak to the proposal matter, and not their order. -/
theorem verdict_of_perm (grants : List PermissionGrant)
    (hperm : (grants.filter fun g => Speaks ctx p g).Perm
      (ctx.permissionGrants.filter fun g => Speaks ctx p g)) :
    verdict (engine.decide c p (withGrants ctx grants)) = verdict (engine.decide c p ctx) := by
  have hsame (effect : PermissionEffect) :
      (∃ g, ExactGrant (withGrants ctx grants) p effect g) ↔ ∃ g, ExactGrant ctx p effect g := by
    rw [exists_exactGrant_iff, exists_exactGrant_iff]
    have hmem (g : PermissionGrant) := hperm.mem_iff (a := g)
    simp only [List.mem_filter, decide_eq_true_eq] at hmem
    constructor
    · rintro ⟨g, hg, heffect, hspeaks⟩
      have hg' := (hmem g).mp ⟨hg, hspeaks⟩
      exact ⟨g, hg'.1, heffect, hg'.2⟩
    · rintro ⟨g, hg, heffect, hspeaks⟩
      have hg' := (hmem g).mpr ⟨hg, hspeaks⟩
      exact ⟨g, hg'.1, heffect, hg'.2⟩
  apply verdict_decide_congr engine c p ctx grants ctx.permissionGrants
  · exact hsame .deny
  · intro _
    exact hsame .allow

/-- The profile does not obstruct. -/
theorem unobstructed_setProfile_iff (profile : SecurityProfile) :
    Unobstructed c p (ctx.setProfile profile) ↔ Unobstructed c p ctx := by
  have hgrants (effect : PermissionEffect) :
      (∃ g, ExactGrant (ctx.setProfile profile) p effect g) ↔ ∃ g, ExactGrant ctx p effect g := by
    rw [exists_exactGrant_iff, exists_exactGrant_iff]
    rfl
  constructor
  · intro h
    exact ⟨h.descriptor, h.provenance, h.scopes, h.immutable, (hgrants .deny).not.mp h.not_denied,
      h.not_privileged, h.not_unknown⟩
  · intro h
    exact ⟨h.descriptor, h.provenance, h.scopes, h.immutable, (hgrants .deny).not.mpr h.not_denied,
      h.not_privileged, h.not_unknown⟩

/-- The Strict profile permits at most what the context's profile permits. -/
theorem outcome_strict_le :
    (engine.decide c p (ctx.setProfile .strict)).outcome ≤ (engine.decide c p ctx).outcome := by
  rw [outcome_le_iff, outcome_decide_eq_deny_iff, outcome_decide_eq_deny_iff,
    unobstructed_setProfile_iff]
  refine ⟨id, ?_⟩
  intro hstrict
  rw [outcome_decide_eq_allow_iff, unobstructed_setProfile_iff] at hstrict
  rw [outcome_decide_eq_allow_iff]
  obtain ⟨hunobstructed, hbaseline⟩ := hstrict
  refine ⟨hunobstructed, ?_⟩
  rcases hbaseline with hallow | ⟨-, g, hg⟩
  · left
    change (engine.baseline c p .strict).outcome = .allow at hallow
    rw [outcome_baseline_eq_allow_iff] at hallow ⊢
    obtain ⟨hclass, hagent, hside, hrest⟩ := hallow
    refine ⟨hclass, hagent, ?_, hrest⟩
    -- Under Strict the rule of the profile is silent because there is no side effect.
    have hnone : c.sideEffect = false := by simpa using hside
    simp [hnone]
  · have hexact : ExactGrant ctx p .allow g := ⟨hg.mem, hg.effect_eq, hg.active, hg.scope_eq⟩
    have hnotDenied := outcome_baseline_ne_deny engine c p ctx.profile
      hunobstructed.not_privileged hunobstructed.not_unknown
    cases hbaseline : (engine.baseline c p ctx.profile).outcome with
    | allow => exact .inl rfl
    | confirm => exact .inr ⟨rfl, g, hexact⟩
    | deny => exact absurd hbaseline hnotDenied

end Effects

/-- How a decision depends on a grant that is added, on the grants as a whole and on the profile. -/
structure DecisionEffects (engine : PolicyEngine) (c : CapabilityDescriptor) (p : ActionProposal)
    (ctx : PolicyContext) (g : PermissionGrant) : Prop where
  allow_keeps_deny : g.effect = .allow → (engine.decide c p ctx).outcome = .deny →
    verdict (engine.decide c p (ctx.addPermissionGrant g)) = verdict (engine.decide c p ctx)
  allow_keeps_allow : g.effect = .allow → (engine.decide c p ctx).outcome = .allow →
    (engine.decide c p (ctx.addPermissionGrant g)).outcome = .allow
  allow_lifts_confirm : g.effect = .allow → (engine.decide c p ctx).outcome = .confirm →
    ((engine.decide c p (ctx.addPermissionGrant g)).outcome = .allow ↔
      g.isActive ctx.nowMs ctx.session ctx.agentId = true ∧
        g.scope = PermissionScope.fromProposal p)
  deny_only_denies : g.effect = .deny →
    (engine.decide c p (ctx.addPermissionGrant g)).outcome ≠ (engine.decide c p ctx).outcome →
    g.isActive ctx.nowMs ctx.session ctx.agentId = true ∧
      g.scope = PermissionScope.fromProposal p ∧
      (engine.decide c p (ctx.addPermissionGrant g)).outcome = .deny
  order_and_silent_grants : ∀ grants : List PermissionGrant,
    (grants.filter fun g => Speaks ctx p g).Perm
      (ctx.permissionGrants.filter fun g => Speaks ctx p g) →
    verdict (engine.decide c p (withGrants ctx grants)) = verdict (engine.decide c p ctx)
  strict_le :
    (engine.decide c p (ctx.setProfile .strict)).outcome ≤ (engine.decide c p ctx).outcome

/-- Every grant has these effects on every proposal, whatever the context. -/
theorem grant_effects (engine : PolicyEngine) (c : CapabilityDescriptor) (p : ActionProposal)
    (ctx : PolicyContext) (g : PermissionGrant) : DecisionEffects engine c p ctx g where
  allow_keeps_deny h := (effect_of_allow engine c p ctx g h).1
  allow_keeps_allow h := (effect_of_allow engine c p ctx g h).2.1
  allow_lifts_confirm h hconfirm := (effect_of_allow engine c p ctx g h).2.2 hconfirm
  deny_only_denies h hchanged := by
    obtain ⟨hspeaks, hdenied⟩ := effect_of_deny engine c p ctx g h hchanged
    exact ⟨hspeaks.1, hspeaks.2, hdenied⟩
  order_and_silent_grants grants hperm := verdict_of_perm engine c p ctx grants hperm
  strict_le := outcome_strict_le engine c p ctx

end Halquen.Policy.GrantEffects
