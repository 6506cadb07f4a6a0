import Halquen.Policy.Engine

/-!
# What the policy engine decides

`ImmutableRule` states the four rules that no grant, profile or confirmation lifts, and
`Unobstructed` collects everything that keeps a proposal from being denied, both without reference
to the order in which the engine looks. The engine agrees with them: a proposal is denied exactly
when it is obstructed (`outcome_decide_eq_deny_iff`), and it is allowed exactly when it is
unobstructed and the baseline allows it or an exact-scope Allow grant lifts the confirmation
(`outcome_decide_eq_allow_iff`).
-/

set_option autoImplicit false

namespace Halquen.Policy.Specification

open Halquen.Domain.Ids Halquen.Domain.Capability Halquen.Domain.Security
open Halquen.Library.Rules Halquen.Policy.Engine

/-- Rules that hold whatever the user has granted or confirms. -/
inductive ImmutableRule (c : CapabilityDescriptor) (p : ActionProposal) : Prop where
  | secretToExternal (flow : DataFlowContext) (hflow : p.context.dataFlow = some flow)
      (hsecret : flow.dataClassification = .secret ∨ flow.source.classification = .secret)
      (hdestination : flow.destination = .external ∨ flow.destination = .untrustedExternal)
  | productionDestructive (hrisk : c.risk = .destructive)
      (hproduction : (∃ r ∈ p.context.resources, r.classification = .production) ∨
        ∃ flow, p.context.dataFlow = some flow ∧ flow.dataClassification = .production)
  | systemCritical (r : ResourceDescriptor) (hr : r ∈ p.context.resources)
      (hclass : r.classification = .systemCritical)
      (hrisk : c.risk = .destructive ∨ c.risk = .privileged ∨ c.risk = .externalSideEffect)
  | untrustedAuthority
      (horigin : p.context.origin = .aiProposal ∨ p.context.origin = .externalContent ∨
        p.context.origin = .plugin ∨ p.context.origin = .agent)
      (segment : List Char) (hsegment : (c.id.asStr.toList.splitOn '.').head? = some segment)
      (hauthority : segment = "security".toList ∨ segment = "permission".toList ∨
        segment = "policy".toList)

/-- A grant of the context that is active there and whose scope is the proposal's. -/
structure ExactGrant (ctx : PolicyContext) (p : ActionProposal) (effect : PermissionEffect)
    (g : PermissionGrant) : Prop where
  mem : g ∈ ctx.permissionGrants
  effect_eq : g.effect = effect
  active : g.isActive ctx.nowMs ctx.session ctx.agentId = true
  scope_eq : g.scope = PermissionScope.fromProposal p

/-- Nothing in the list of denials applies. -/
structure Unobstructed (c : CapabilityDescriptor) (p : ActionProposal) (ctx : PolicyContext) :
    Prop where
  descriptor : c.validate = .ok ()
  provenance : p.context.validate = .ok ()
  scopes : ∀ scope ∈ c.scopeRequirements, scope ∈ ctx.grantedScopes
  immutable : ¬ ImmutableRule c p
  not_denied : ¬ ∃ g, ExactGrant ctx p .deny g
  not_privileged : c.risk ≠ .privileged
  not_unknown : c.risk ≠ .unknown

section Readings

variable (c : CapabilityDescriptor) (p : ActionProposal) (ctx : PolicyContext)

theorem capability_isValid_iff : c.isValid = true ↔ c.validate = .ok () := by
  unfold CapabilityDescriptor.isValid
  cases c.validate <;> simp

theorem context_isValid_iff (context : ActionContext) :
    context.isValid = true ↔ context.validate = .ok () := by
  unfold ActionContext.isValid
  cases context.validate <;> simp

theorem hasResource_iff (class_ : ResourceClassification) :
    hasResource p class_ = true ↔ ∃ r ∈ p.context.resources, r.classification = class_ := by
  simp [hasResource]

theorem missingScope_eq_none_iff :
    ctx.missingScope c = none ↔ ∀ scope ∈ c.scopeRequirements, scope ∈ ctx.grantedScopes := by
  simp [PolicyContext.missingScope]

theorem matchingPermission_eq_none_iff (effect : PermissionEffect) :
    ctx.matchingPermission p effect = none ↔ ¬ ∃ g, ExactGrant ctx p effect g := by
  simp only [PolicyContext.matchingPermission, List.find?_eq_none, Bool.and_eq_true, beq_iff_eq,
    PermissionScope.matches_iff, not_exists]
  constructor
  · intro h g hg
    exact h g hg.mem ⟨⟨hg.effect_eq, hg.active⟩, hg.scope_eq⟩
  · rintro h g hmem ⟨⟨heffect, hactive⟩, hscope⟩
    exact h g ⟨hmem, heffect, hactive, hscope⟩

/-- The grant that the engine finds is an exact grant of its context. -/
theorem exactGrant_of_matchingPermission {effect : PermissionEffect} {g : PermissionGrant}
    (h : ctx.matchingPermission p effect = some g) : ExactGrant ctx p effect g := by
  have hmem := List.mem_of_find?_eq_some h
  have hp := List.find?_some h
  simp only [Bool.and_eq_true, beq_iff_eq, PermissionScope.matches_iff] at hp
  exact ⟨hmem, hp.1.1, hp.1.2, hp.2⟩

theorem authorityCapability_iff (id : CapabilityId) :
    authorityCapability id = true ↔ ∃ segment, (id.asStr.toList.splitOn '.').head? = some segment ∧
      (segment = "security".toList ∨ segment = "permission".toList ∨
        segment = "policy".toList) := by
  unfold authorityCapability
  cases (id.asStr.toList.splitOn '.').head? <;> simp [or_assoc]

theorem untrustedOrigin_iff (origin : ActionOrigin) :
    untrustedOrigin origin = true ↔ origin = .aiProposal ∨ origin = .externalContent ∨
      origin = .plugin ∨ origin = .agent := by
  cases origin <;> simp [untrustedOrigin]

/-- The four immutable rules are the four checks of the engine. -/
theorem immutableRule_iff :
    ImmutableRule c p ↔ secretToExternal p = true ∨ productionDestructive c p = true ∨
      systemCriticalRisk c p = true ∨
      (untrustedOrigin p.context.origin && authorityCapability c.id) = true := by
  simp only [Engine.secretToExternal, Engine.productionDestructive, systemCriticalRisk,
    Bool.and_eq_true, Bool.or_eq_true, beq_iff_eq, Option.any_eq_true, hasResource_iff,
    authorityCapability_iff, untrustedOrigin_iff]
  constructor
  · intro h
    cases h with
    | secretToExternal flow hflow hsecret hdestination =>
        exact .inl ⟨flow, hflow, hsecret, hdestination⟩
    | productionDestructive hrisk hproduction => exact .inr (.inl ⟨hrisk, hproduction⟩)
    | systemCritical r hr hclass hrisk =>
        exact .inr (.inr (.inl ⟨⟨r, hr, hclass⟩, or_assoc.mpr hrisk⟩))
    | untrustedAuthority horigin segment hsegment hauthority =>
        exact .inr (.inr (.inr ⟨horigin, segment, hsegment, hauthority⟩))
  · rintro (⟨flow, hflow, hsecret, hdestination⟩ | ⟨hrisk, hproduction⟩ |
      ⟨⟨r, hr, hclass⟩, hrisk⟩ | ⟨horigin, segment, hsegment, hauthority⟩)
    · exact .secretToExternal flow hflow hsecret hdestination
    · exact .productionDestructive hrisk hproduction
    · exact .systemCritical r hr hclass (or_assoc.mp hrisk)
    · exact .untrustedAuthority horigin segment hsegment hauthority

end Readings

/-! ## Outcomes -/

section Outcomes

variable (engine : PolicyEngine) (c : CapabilityDescriptor) (p : ActionProposal)
  (ctx : PolicyContext)

/-- Silence of the engine's denials is freedom from obstruction. -/
theorem silent_denials_iff : Silent (denials c p ctx) ↔ Unobstructed c p ctx := by
  simp only [denials, silent_cons, silent_nil, rule_eq_none_iff, Option.map_eq_none_iff,
    Bool.not_eq_false', capability_isValid_iff, context_isValid_iff, missingScope_eq_none_iff,
    matchingPermission_eq_none_iff, beq_eq_false_iff_ne, and_true]
  constructor
  · rintro ⟨hc, hp, hscopes, h1, h2, h3, h4, hdeny, hpriv, hunk⟩
    refine ⟨hc, hp, hscopes, ?_, hdeny, hpriv, hunk⟩
    rw [immutableRule_iff]
    simp [h1, h2, h3, h4]
  · rintro ⟨hc, hp, hscopes, himm, hdeny, hpriv, hunk⟩
    rw [immutableRule_iff] at himm
    simp only [not_or, Bool.not_eq_true] at himm
    obtain ⟨h1, h2, h3, h4⟩ := himm
    exact ⟨hc, hp, hscopes, h1, h2, h3, h4, hdeny, hpriv, hunk⟩

theorem outcome_of_mem_denials {d : PolicyDecision} (h : some d ∈ denials c p ctx) :
    d.outcome = .deny := by
  simp only [denials, List.mem_cons, List.not_mem_nil, or_false, @eq_comm _ (some d),
    rule_eq_some_iff, Option.map_eq_some_iff] at h
  rcases h with ⟨-, rfl⟩ | ⟨-, rfl⟩ | ⟨_, -, rfl⟩ | ⟨-, rfl⟩ | ⟨-, rfl⟩ | ⟨-, rfl⟩ | ⟨-, rfl⟩ |
    ⟨_, -, rfl⟩ | ⟨-, rfl⟩ | ⟨-, rfl⟩ <;> rfl

theorem outcome_baseline_ne_deny (profile : SecurityProfile) (hpriv : c.risk ≠ .privileged)
    (hunk : c.risk ≠ .unknown) : (engine.baseline c p profile).outcome ≠ .deny := by
  unfold PolicyEngine.baseline
  rcases firstRule_cases _ _ with ⟨-, heq⟩ | ⟨before, v, after, hrules, -, heq⟩
  · rw [heq]
    cases hr : c.risk <;> simp_all [PolicyEngine.riskBaseline, allow, confirmation]
    split <;> simp
  · rw [heq]
    have hv : some v ∈ before ++ some v :: after := by simp
    rw [← hrules] at hv
    simp only [List.mem_cons, List.not_mem_nil, or_false, @eq_comm _ (some v),
      rule_eq_some_iff] at hv
    rcases hv with ⟨-, rfl⟩ | ⟨-, rfl⟩ | ⟨-, rfl⟩ | ⟨-, rfl⟩ | ⟨-, rfl⟩ <;> simp [confirmation]

/-- An agent's side effect is never allowed by the baseline. -/
theorem outcome_baseline_of_agent (profile : SecurityProfile) (horigin : p.context.origin = .agent)
    (hside : c.sideEffect = true) : (engine.baseline c p profile).outcome = .confirm := by
  unfold PolicyEngine.baseline
  rcases firstRule_cases _ _ with ⟨hsilent, heq⟩ | ⟨before, v, after, hrules, -, heq⟩
  · rw [heq]
    -- The third rule speaks.
    simp [silent_cons, horigin, hside] at hsilent
  · rw [heq]
    have hv : some v ∈ before ++ some v :: after := by simp
    rw [← hrules] at hv
    simp only [List.mem_cons, List.not_mem_nil, or_false, @eq_comm _ (some v),
      rule_eq_some_iff] at hv
    rcases hv with ⟨-, rfl⟩ | ⟨-, rfl⟩ | ⟨-, rfl⟩ | ⟨-, rfl⟩ | ⟨-, rfl⟩ <;> rfl

theorem outcome_liftConfirm (d : PolicyDecision) :
    ((liftConfirm p ctx d).outcome = .allow ↔
      d.outcome = .allow ∨ d.outcome = .confirm ∧ ∃ g, ExactGrant ctx p .allow g) ∧
    ((liftConfirm p ctx d).outcome = .deny ↔ d.outcome = .deny) := by
  unfold liftConfirm
  split
  · rename_i hconfirm
    split
    · rename_i g hg
      have hexact : ∃ g, ExactGrant ctx p .allow g :=
        ⟨g, exactGrant_of_matchingPermission p ctx hg⟩
      simp [hconfirm, hexact, allow]
    · rename_i hnone
      rw [matchingPermission_eq_none_iff] at hnone
      simp [hconfirm, hnone]
  · rename_i hconfirm
    simp [hconfirm]

/-- A proposal is denied exactly when it is obstructed. -/
theorem outcome_decide_eq_deny_iff :
    (engine.decide c p ctx).outcome = .deny ↔ ¬ Unobstructed c p ctx := by
  have key : (engine.decide c p ctx).outcome ≠ .deny ↔ Unobstructed c p ctx := by
    unfold PolicyEngine.decide
    rw [firstRule_forall_iff _ (fun d : PolicyDecision => d.outcome ≠ .deny)]
    · rw [silent_denials_iff]
      refine ⟨fun h => h.1, fun h => ⟨h, ?_⟩⟩
      rw [Ne, (outcome_liftConfirm p ctx _).2]
      exact outcome_baseline_ne_deny engine c p _ h.not_privileged h.not_unknown
    · intro d hd
      simp [outcome_of_mem_denials c p ctx hd]
  rw [← key, not_not]

/-- A proposal is allowed exactly when it is unobstructed and the baseline allows it, or asks for a
confirmation that an exact-scope Allow grant supplies. -/
theorem outcome_decide_eq_allow_iff :
    (engine.decide c p ctx).outcome = .allow ↔ Unobstructed c p ctx ∧
      ((engine.baseline c p ctx.profile).outcome = .allow ∨
        (engine.baseline c p ctx.profile).outcome = .confirm ∧
          ∃ g, ExactGrant ctx p .allow g) := by
  unfold PolicyEngine.decide
  rw [firstRule_forall_iff _ (fun d : PolicyDecision => d.outcome = .allow)]
  · rw [silent_denials_iff, (outcome_liftConfirm p ctx _).1]
  · intro d hd
    simp [outcome_of_mem_denials c p ctx hd]

/-- An agent's side effect is allowed by an exact-scope grant only. -/
theorem reason_of_agent_allow (horigin : p.context.origin = .agent) (hside : c.sideEffect = true)
    (hallow : (engine.decide c p ctx).outcome = .allow) :
    (engine.decide c p ctx).reason = .persistentExactAllow := by
  unfold PolicyEngine.decide at hallow ⊢
  rcases firstRule_cases (denials c p ctx)
    (liftConfirm p ctx (engine.baseline c p ctx.profile)) with
    ⟨-, heq⟩ | ⟨before, d, after, hrules, -, heq⟩
  · rw [heq] at hallow ⊢
    unfold liftConfirm at hallow ⊢
    rw [if_pos (outcome_baseline_of_agent engine c p ctx.profile horigin hside)] at hallow ⊢
    cases hmatch : ctx.matchingPermission p .allow with
    | some grant => rfl
    | none =>
        rw [hmatch] at hallow
        rw [outcome_baseline_of_agent engine c p ctx.profile horigin hside] at hallow
        cases hallow
  · rw [heq] at hallow
    have hmem : some d ∈ denials c p ctx := by
      rw [hrules]
      simp
    rw [outcome_of_mem_denials c p ctx hmem] at hallow
    cases hallow

theorem reason_baseline_ne (profile : SecurityProfile) :
    (engine.baseline c p profile).reason ≠ .persistentExactAllow := by
  unfold PolicyEngine.baseline
  rcases firstRule_cases _ _ with ⟨-, heq⟩ | ⟨before, v, after, hrules, -, heq⟩
  · rw [heq]
    cases c.risk with
    | reversibleLocalWrite =>
        simp only [PolicyEngine.riskBaseline]
        split <;> simp [allow, confirmation]
    | _ => simp [PolicyEngine.riskBaseline, allow, confirmation, denial]
  · rw [heq]
    have hv : some v ∈ before ++ some v :: after := by simp
    rw [← hrules] at hv
    simp only [List.mem_cons, List.not_mem_nil, or_false, @eq_comm _ (some v),
      rule_eq_some_iff] at hv
    rcases hv with ⟨-, rfl⟩ | ⟨-, rfl⟩ | ⟨-, rfl⟩ | ⟨-, rfl⟩ | ⟨-, rfl⟩ <;> simp [confirmation]

theorem reason_of_mem_denials {d : PolicyDecision} (h : some d ∈ denials c p ctx) :
    d.reason ≠ .persistentExactAllow := by
  simp only [denials, List.mem_cons, List.not_mem_nil, or_false, @eq_comm _ (some d),
    rule_eq_some_iff, Option.map_eq_some_iff] at h
  rcases h with ⟨-, rfl⟩ | ⟨-, rfl⟩ | ⟨_, -, rfl⟩ | ⟨-, rfl⟩ | ⟨-, rfl⟩ | ⟨-, rfl⟩ | ⟨-, rfl⟩ |
    ⟨_, -, rfl⟩ | ⟨-, rfl⟩ | ⟨-, rfl⟩ <;> simp [denial]

/-- A decision that rests on a grant rests on an exact Allow grant of the context. -/
theorem exactGrant_of_reason (h : (engine.decide c p ctx).reason = .persistentExactAllow) :
    ∃ g, ExactGrant ctx p .allow g := by
  unfold PolicyEngine.decide at h
  rcases firstRule_cases (denials c p ctx)
    (liftConfirm p ctx (engine.baseline c p ctx.profile)) with
    ⟨-, heq⟩ | ⟨before, d, after, hrules, -, heq⟩
  · rw [heq] at h
    unfold liftConfirm at h
    have hbaseline := reason_baseline_ne engine c p ctx.profile
    split at h
    · cases hmatch : ctx.matchingPermission p .allow with
      | some grant => exact ⟨grant, exactGrant_of_matchingPermission p ctx hmatch⟩
      | none =>
          rw [hmatch] at h
          exact absurd h hbaseline
    · exact absurd h hbaseline
  · rw [heq] at h
    have hmem : some d ∈ denials c p ctx := by
      rw [hrules]
      simp
    exact absurd h (reason_of_mem_denials c p ctx hmem)

end Outcomes

/-! ## Which grants matter -/

/-- Outcome and reason of a decision; grants may differ in their expiry only. -/
def verdict (d : PolicyDecision) : PolicyOutcome × PolicyReason := (d.outcome, d.reason)

/-- The context with these grants. -/
def withGrants (ctx : PolicyContext) (grants : List PermissionGrant) : PolicyContext :=
  { ctx with permissionGrants := grants }

section Grants

variable (engine : PolicyEngine) (c : CapabilityDescriptor) (p : ActionProposal)
  (ctx : PolicyContext)

theorem isSome_matchingPermission_iff (effect : PermissionEffect) :
    (ctx.matchingPermission p effect).isSome = true ↔ ∃ g, ExactGrant ctx p effect g := by
  rw [← not_iff_not, ← matchingPermission_eq_none_iff]
  simp

theorem verdict_liftConfirm (d : PolicyDecision) :
    verdict (liftConfirm p ctx d) =
      if d.outcome = .confirm ∧ (ctx.matchingPermission p .allow).isSome = true then
        (.allow, .persistentExactAllow)
      else
        verdict d := by
  unfold liftConfirm
  by_cases hconfirm : d.outcome = .confirm
  · cases hmatch : ctx.matchingPermission p .allow with
    | some g => simp [hconfirm, verdict, allow]
    | none => simp [hconfirm]
  · simp [hconfirm]

theorem map_verdict_denials :
    (denials c p ctx).map (Option.map verdict) =
      [ (rule (!c.isValid) (denial .invalidDescriptor "core.invalid-descriptor" true)).map verdict,
        (rule (!p.context.isValid)
          (denial .invalidProvenance "core.invalid-provenance" true)).map verdict,
        (ctx.missingScope c).map fun scope => (.deny, .missingScope scope),
        (rule (secretToExternal p)
          (denial .immutableSecretExfiltrationDeny "immutable.secret-to-external" true)).map
            verdict,
        (rule (productionDestructive c p)
          (denial .immutableProductionDestructiveDeny "immutable.production-destructive"
            true)).map verdict,
        (rule (systemCriticalRisk c p)
          (denial .immutableSystemCriticalDeny "immutable.system-critical" true)).map verdict,
        (rule (untrustedOrigin p.context.origin && authorityCapability c.id)
          (denial .untrustedAuthorityMutationDenied "immutable.untrusted-authority-mutation"
            true)).map verdict,
        (ctx.matchingPermission p .deny).map fun _ => (.deny, .persistentExactDeny),
        (rule (c.risk == .privileged)
          (denial .privilegedDenied "baseline.privileged-deny" false)).map verdict,
        (rule (c.risk == .unknown)
          (denial .unknownRiskDenied "baseline.unknown-risk-deny" false)).map verdict] := by
  simp only [denials, List.map_cons, List.map_nil, Option.map_map]
  rfl

/-- The denials say the same under two sets of grants that agree on whether an exact Deny grant is
active. -/
theorem map_verdict_denials_congr (grants grants' : List PermissionGrant)
    (hdeny : (∃ g, ExactGrant (withGrants ctx grants) p .deny g) ↔
      ∃ g, ExactGrant (withGrants ctx grants') p .deny g) :
    (denials c p (withGrants ctx grants)).map (Option.map verdict) =
      (denials c p (withGrants ctx grants')).map (Option.map verdict) := by
  rw [← isSome_matchingPermission_iff, ← isSome_matchingPermission_iff] at hdeny
  have hentry : ((withGrants ctx grants).matchingPermission p .deny).map
        (fun _ => (PolicyOutcome.deny, PolicyReason.persistentExactDeny)) =
      ((withGrants ctx grants').matchingPermission p .deny).map
        (fun _ => (PolicyOutcome.deny, PolicyReason.persistentExactDeny)) := by
    cases h : (withGrants ctx grants).matchingPermission p .deny <;>
      cases h' : (withGrants ctx grants').matchingPermission p .deny <;> simp_all
  rw [map_verdict_denials, map_verdict_denials, hentry]
  rfl

/-- Denials that say something outweigh what follows them. -/
theorem verdict_decide_of_obstructed (grants grants' : List PermissionGrant)
    (hdeny : (∃ g, ExactGrant (withGrants ctx grants) p .deny g) ↔
      ∃ g, ExactGrant (withGrants ctx grants') p .deny g)
    (hobstructed : ¬ Unobstructed c p (withGrants ctx grants)) :
    verdict (engine.decide c p (withGrants ctx grants)) =
      verdict (engine.decide c p (withGrants ctx grants')) := by
  unfold PolicyEngine.decide
  rw [map_firstRule verdict, map_firstRule verdict,
    ← map_verdict_denials_congr c p ctx grants grants' hdeny]
  apply firstRule_eq_of_not_silent
  intro hsilent
  apply hobstructed
  rw [← silent_denials_iff]
  intro r hr
  have hverdict := hsilent _ (List.mem_map_of_mem hr)
  exact Option.map_eq_none_iff.mp hverdict

/-- Two sets of grants lead to the same outcome and reason if they agree on whether an exact Deny
grant is active and, where none is, on whether an exact Allow grant is. -/
theorem verdict_decide_congr (grants grants' : List PermissionGrant)
    (hdeny : (∃ g, ExactGrant (withGrants ctx grants) p .deny g) ↔
      ∃ g, ExactGrant (withGrants ctx grants') p .deny g)
    (hallow : (¬ ∃ g, ExactGrant (withGrants ctx grants) p .deny g) →
      ((∃ g, ExactGrant (withGrants ctx grants) p .allow g) ↔
        ∃ g, ExactGrant (withGrants ctx grants') p .allow g)) :
    verdict (engine.decide c p (withGrants ctx grants)) =
      verdict (engine.decide c p (withGrants ctx grants')) := by
  by_cases hnone : ∃ g, ExactGrant (withGrants ctx grants) p .deny g
  · apply verdict_decide_of_obstructed engine c p ctx grants grants' hdeny
    intro hfree
    exact hfree.not_denied hnone
  · have hboth := hallow hnone
    rw [← isSome_matchingPermission_iff, ← isSome_matchingPermission_iff] at hboth
    unfold PolicyEngine.decide
    rw [map_firstRule verdict, map_firstRule verdict,
      map_verdict_denials_congr c p ctx grants grants' hdeny, verdict_liftConfirm,
      verdict_liftConfirm]
    simp only [hboth]
    rfl

end Grants

end Halquen.Policy.Specification
