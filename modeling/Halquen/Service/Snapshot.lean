import Halquen.Service.GrantLookup
import Halquen.Service.SingleUse

/-!
# Confirmed snapshots

A confirmation keeps the proposal as it was classified when it was made. When it is accepted, the
policy evaluates that snapshot and not a proposal under the labels stored by then, so a launch goes
through that a fresh proposal would have been denied, in exactly the states of `Overtaken`
(`freshDenied_iff`, `confirmation_as_fresh`).
-/

set_option autoImplicit false

namespace Halquen.Service.Snapshot

open Halquen.Domain.Ids Halquen.Domain.Capability Halquen.Domain.Security Halquen.Policy.Engine
open Halquen.Policy.Authorization Halquen.Policy.Specification Halquen.Capabilities.Executor
open Halquen.Protocol.Messages
open Halquen.Library.Rules Halquen.Library.Run
open Halquen.Service.Context Halquen.Service.State Halquen.Service.Proposals
open Halquen.Service.Confirmations Halquen.Service.Chat Halquen.Service.Handler
open Halquen.Service.Ledger Halquen.Service.Evolution Halquen.Service.SingleUse
open Halquen.Storage.Labels Halquen.Storage.Sqlite

/-! ## Proposals to open an application -/

/-- Context of a proposal to open an application. -/
def openContext (correlationId : String) (app : EntityId)
    (classification : ResourceClassification) : ActionContext :=
  (ActionContext.localResolution (some correlationId)).withResource
    ⟨.application, app.asStr, classification⟩

theorem openProposal_eq_ok_iff {correlationId : String} {app : EntityId}
    {classification : ResourceClassification} {proposal : ActionProposal} :
    openProposal correlationId app classification = .ok proposal ↔
      (openContext correlationId app classification).validate = .ok () ∧
        proposal = ⟨⟨openAppDescriptor.id, .openApp app⟩,
          openContext correlationId app classification⟩ := by
  change ActionProposal.new _ (openContext correlationId app classification) = _ ↔ _
  unfold ActionProposal.new
  cases (openContext correlationId app classification).validate with
  | error e => simp [bind, Except.bind]
  | ok u => simp [bind, Except.bind, eq_comm]

/-- The proposals that a proposal to open an application meets in the rules of the engine. -/
theorem immutableRule_open_iff {descriptor : CapabilityDescriptor} {correlationId : String}
    {app : EntityId} {classification : ResourceClassification} {proposal : ActionProposal}
    (h : openProposal correlationId app classification = .ok proposal) :
    ImmutableRule descriptor proposal ↔
      classification = .production ∧ descriptor.risk = .destructive ∨
        classification = .systemCritical ∧ (descriptor.risk = .destructive ∨
          descriptor.risk = .privileged ∨ descriptor.risk = .externalSideEffect) := by
  obtain ⟨-, rfl⟩ := openProposal_eq_ok_iff.mp h
  constructor
  · intro hrule
    cases hrule with
    | secretToExternal flow hflow => cases hflow
    | productionDestructive hrisk hproduction =>
        rcases hproduction with ⟨r, hr, hclass⟩ | ⟨flow, hflow, -⟩
        · obtain rfl := List.mem_singleton.mp hr
          exact .inl ⟨hclass, hrisk⟩
        · cases hflow
    | systemCritical r hr hclass hrisk =>
        obtain rfl := List.mem_singleton.mp hr
        exact .inr ⟨hclass, hrisk⟩
    | untrustedAuthority horigin =>
        rcases horigin with horigin | horigin | horigin | horigin <;> cases horigin
  · rintro (⟨hclass, hrisk⟩ | ⟨hclass, hrisk⟩)
    · exact .productionDestructive hrisk (.inl ⟨_, List.mem_singleton_self _, hclass⟩)
    · exact .systemCritical _ (List.mem_singleton_self _) hclass hrisk

/-! ## Fresh proposals -/

section

variable {W : World}

/-- A proposal for the waiting action that is made in this state, as an accepted confirmation would
have it evaluated there. -/
structure Fresh (W : World) (s : ServiceState) (pending : PendingConfirmation)
    (classification : ResourceClassification) (proposal : ActionProposal)
    (descriptor : CapabilityDescriptor) (context : PolicyContext) : Prop where
  proposed : ∃ correlationId app, pending.proposal.action.arguments = .openApp app ∧
    classification = classify s.data.database.labels .application app.asStr ∧
    openProposal correlationId app classification = .ok proposal
  registered : s.data.registry.get proposal.action.capabilityId = some descriptor
  evaluated : contextAt W s.data.database proposal pending.sessionId
    (W.clock (s.consulted + 4)) = .ok context

/-- A fresh proposal for the waiting action is denied. -/
def FreshDenied (W : World) (s : ServiceState) (pending : PendingConfirmation) : Prop :=
  ∃ classification proposal descriptor context,
    Fresh W s pending classification proposal descriptor context ∧
      (s.data.policy.evaluateProposal descriptor proposal context).outcome = .deny

/-- The labels have moved on: under the classification stored now, an immutable rule or an active
Deny grant stands against the waiting action. -/
def Overtaken (W : World) (s : ServiceState) (pending : PendingConfirmation) : Prop :=
  ∃ classification proposal descriptor context,
    Fresh W s pending classification proposal descriptor context ∧
      (classification = .production ∧ descriptor.risk = .destructive ∨
        classification = .systemCritical ∧ (descriptor.risk = .destructive ∨
          descriptor.risk = .privileged ∨ descriptor.risk = .externalSideEffect) ∨
        ∃ grant, ExactGrant context proposal .deny grant)

/-- A context of the service grants no scope. -/
theorem grantedScopes_contextAt {d : Database} {proposal : ActionProposal}
    {sessionId : Option ChatSessionId} {timestamp : Int} {context : PolicyContext}
    (h : contextAt W d proposal sessionId timestamp = .ok context) :
    context.grantedScopes = ∅ := by
  unfold contextAt at h
  cases hlookup : Storage.Grants.activePermissionGrantForProposal W.serde d.sessions.grants proposal
      (permissionSession proposal sessionId) (permissionAgent proposal) timestamp with
  | error e =>
      rw [hlookup] at h
      cases h
  | ok grant =>
      rw [hlookup] at h
      cases h
      cases grant with
      | none => simp [contextFor_eq]
      | some g => simp [contextFor_eq, PolicyContext.addPermissionGrant]

/-- Where the snapshot is let through, only the new classification can have a fresh proposal
denied. -/
theorem freshDenied_iff {s : ServiceState} {pending : PendingConfirmation}
    (hproposed : ∃ correlationId app classification,
      openProposal correlationId app classification = .ok pending.proposal)
    (hundenied : Undenied W s pending) : FreshDenied W s pending ↔ Overtaken W s pending := by
  obtain ⟨correlationId, app, classification, hstored⟩ := hproposed
  obtain ⟨-, hstored⟩ := openProposal_eq_ok_iff.mp hstored
  obtain ⟨registered, context₀, hregistered, hcontext₀, hallowed⟩ := hundenied
  rw [PolicyEngine.evaluateProposal, Ne, outcome_decide_eq_deny_iff, not_not] at hallowed
  -- Both proposals name the same capability, so the stored evaluation speaks of this descriptor.
  have hsame : ∀ {cls proposal descriptor context},
      Fresh W s pending cls proposal descriptor context → descriptor = registered := by
    intro cls proposal descriptor context hfresh
    obtain ⟨correlationId', app', -, -, hopen⟩ := hfresh.proposed
    obtain ⟨-, rfl⟩ := openProposal_eq_ok_iff.mp hopen
    have hget := hfresh.registered
    rw [hstored] at hregistered
    rw [hregistered] at hget
    exact (Option.some.inj hget).symm
  constructor
  · rintro ⟨cls, proposal, descriptor, context, hfresh, hdenied⟩
    refine ⟨cls, proposal, descriptor, context, hfresh, ?_⟩
    obtain rfl := hsame hfresh
    obtain ⟨correlationId', app', -, -, hopen⟩ := hfresh.proposed
    rw [PolicyEngine.evaluateProposal, outcome_decide_eq_deny_iff] at hdenied
    -- The stored proposal was allowed, so only what changed since can deny the fresh one.
    by_contra hclear
    rw [not_or, not_or] at hclear
    apply hdenied
    refine ⟨hallowed.descriptor, ?_, ?_, ?_, hclear.2.2, hallowed.not_privileged,
      hallowed.not_unknown⟩
    · obtain ⟨hvalid, rfl⟩ := openProposal_eq_ok_iff.mp hopen
      exact hvalid
    · intro scope hscope
      rw [grantedScopes_contextAt hfresh.evaluated]
      rw [← grantedScopes_contextAt hcontext₀]
      exact hallowed.scopes scope hscope
    · rw [immutableRule_open_iff hopen, not_or]
      exact ⟨hclear.1, hclear.2.1⟩
  · rintro ⟨cls, proposal, descriptor, context, hfresh, hagainst⟩
    refine ⟨cls, proposal, descriptor, context, hfresh, ?_⟩
    obtain ⟨correlationId', app', -, -, hopen⟩ := hfresh.proposed
    rw [PolicyEngine.evaluateProposal, outcome_decide_eq_deny_iff]
    -- Each of the three denies the fresh proposal.
    intro hclear
    rcases hagainst with hproduction | hcritical | hgrant
    · exact hclear.immutable ((immutableRule_open_iff hopen).mpr (.inl hproduction))
    · exact hclear.immutable ((immutableRule_open_iff hopen).mpr (.inr hcritical))
    · exact hclear.not_denied hgrant

/-! ## Runs -/

/-- Every waiting proposal was made to open an application. -/
def Proposed (d : ServiceData) : Prop :=
  ∀ c pending, d.pendingConfirmations c = some pending →
    ∃ correlationId app classification,
      openProposal correlationId app classification = .ok pending.proposal

theorem proposed_step {d d' : ServiceData} (hstep : LedgerStep d d') (h : Proposed d) :
    Proposed d' := by
  intro c pending hwaits
  cases hstep with
  | quiet effects hmemory haudit hpending => exact h c pending (hpending c pending hwaits)
  | noted record hmemory haudit hforeign hpending =>
      rw [hpending] at hwaits
      exact h c pending hwaits
  | recorded receipt records invoked effects hmemory hrecords haudit hpending =>
      rw [hpending] at hwaits
      exact h c pending hwaits
  | awaiting receipt records confirmationId issued hmemory hrecords hawaiting hstatus hrequest
      hproposal haudit hpending =>
      rw [hpending, Function.update_apply] at hwaits
      split at hwaits
      · -- The entry that this step puts in.
        obtain rfl := Option.some.inj hwaits
        exact hproposal
      · exact h c pending hwaits
  | refused record confirmationId answered hmemory hwaiting hevent haudit hpending =>
      rw [hpending, Function.update_apply] at hwaits
      split at hwaits
      · cases hwaits
      · exact h c pending hwaits
  | lost effects hmemory hpending => exact h c pending (hpending c pending hwaits)

theorem proposed_after (registry : CapabilityRegistry) (policy : PolicyEngine)
    (inputs : List Input) : Proposed (after W registry policy inputs).data :=
  invariant_after (fun _ _ => proposed_step) (fun c pending hc => by cases hc) inputs

/-- A call that invokes an executor has found a waiting proposal that the policy does not deny. -/
theorem undenied_of_invokedFor {c : String} {s : ServiceState} {input : Input}
    (h : invokedFor W c s input ≠ 0) :
    ∃ pending, s.data.pendingConfirmations c = some pending ∧ Undenied W s pending := by
  obtain ⟨-, hconfirms, -⟩ := (invokedFor_cases (W := W) c s input).resolve_left h
  obtain ⟨allow, r, hanswered⟩ := answered_step (W := W) hconfirms s
  rcases (answered_effects hanswered).2 with
    hsame | ⟨-, -, pending, p, authorization, hwaiting, -, hp, hauthorization⟩
  · refine absurd ?_ h
    rw [invokedFor, if_pos hconfirms]
    exact Nat.sub_eq_zero_of_le (Nat.le_of_eq hsame)
  · exact ⟨pending, hwaiting, undenied_of_prepares hp hauthorization⟩

/-- In every run, a call that invokes an executor for a confirmation does so for an action whose
fresh proposal is not denied at that moment, if and only if the labels have not overtaken it. -/
theorem confirmation_as_fresh (W : World) (registry : CapabilityRegistry) (policy : PolicyEngine)
    (before : List Input) (call : Input) (c : String)
    (hinvoked : invokedFor W c (after W registry policy before) call ≠ 0) :
    let s := after W registry policy before
    ∃ pending, s.data.pendingConfirmations c = some pending ∧
      (¬ FreshDenied W s pending ↔ ¬ Overtaken W s pending) := by
  intro s
  obtain ⟨pending, hwaiting, hundenied⟩ := undenied_of_invokedFor hinvoked
  have hproposed := proposed_after (W := W) registry policy before c pending hwaiting
  exact ⟨pending, hwaiting, not_congr (freshDenied_iff hproposed hundenied)⟩

end

/-! ## A launch that a fresh proposal would not have been allowed -/

theorem confirmation_as_fresh_waiting :
    let s := after (.steady (.listed [])) .launching .new waitingRun
    ∃ pending, s.data.pendingConfirmations waitingId = some pending ∧
      (¬ FreshDenied (.steady (.listed [])) s pending ↔
        ¬ Overtaken (.steady (.listed [])) s pending) :=
  confirmation_as_fresh (.steady (.listed [])) .launching .new waitingRun (.request acceptance)
    waitingId (by decide +kernel)

/-- The scope of a launch of an application that is labelled sensitive. -/
def sensitiveScope : PermissionScope where
  capabilityId := openAppDescriptor.id
  arguments := .openApp telegram
  resources := [⟨.application, telegram.asStr, .sensitive⟩]
  destination := none

/-- Knows the one scope that the run below stores. -/
def sensitiveWorld : World :=
  .steady (.listed [(sensitiveScope, GrantLookup.telegramScopeJson "sensitive")])

/-- After the confirmation was issued, the application is labelled sensitive and a Deny grant is
stored for its launch. -/
def overtakenRun : List Input := waitingRun ++ [
  .request ⟨"request:4", .upsertResourceLabel
    ⟨none, "Telegram", .application, .exact, telegram.asStr, .sensitive, .sensitive⟩⟩,
  .request ⟨"request:5", .upsertPermissionGrant
    ⟨none, .deny, .always, openAppDescriptor.id, .openApp telegram, sensitiveScope.resources, none,
      none, none, none⟩⟩]

/-- The proposal that the message would lead to now. -/
def sensitiveProposal : ActionProposal :=
  ⟨⟨openAppDescriptor.id, .openApp telegram⟩, openContext "request:2" telegram .sensitive⟩

/-- Outcome for the sensitive proposal in a state, in the session of the confirmation. -/
def sensitiveOutcome (s : ServiceState) (pending : PendingConfirmation) : Option PolicyOutcome :=
  (contextAt sensitiveWorld s.data.database sensitiveProposal pending.sessionId
    (sensitiveWorld.clock (s.consulted + 4))).toOption.map fun context =>
      (s.data.policy.evaluateProposal openAppDescriptor sensitiveProposal context).outcome

theorem freshDenied_overtakenRun {pending : PendingConfirmation}
    (hpending : (after sensitiveWorld .launching .new overtakenRun).data.pendingConfirmations
      waitingId = some pending) :
    FreshDenied sensitiveWorld (after sensitiveWorld .launching .new overtakenRun) pending := by
  -- The facts about the fixed run, evaluated before the state is generalized.
  have hfacts : ((after sensitiveWorld .launching .new overtakenRun).data.pendingConfirmations
      waitingId).all (fun pending =>
        decide (pending.proposal.action.arguments = .openApp telegram) &&
          decide (sensitiveOutcome (after sensitiveWorld .launching .new overtakenRun) pending =
            some .deny)) = true := by decide +kernel
  have hclass : ResourceClassification.sensitive = classify
      (after sensitiveWorld .launching .new overtakenRun).data.database.labels .application
        telegram.asStr := by decide +kernel
  have hopen : openProposal "request:2" telegram .sensitive = .ok sensitiveProposal := by
    decide
  have hget : (after sensitiveWorld .launching .new overtakenRun).data.registry.get
      openAppDescriptor.id = some openAppDescriptor := by decide +kernel
  generalize after sensitiveWorld .launching .new overtakenRun = s at *
  rw [hpending] at hfacts
  simp only [Option.all_some, Bool.and_eq_true, decide_eq_true_eq] at hfacts
  obtain ⟨harguments, houtcome⟩ := hfacts
  obtain ⟨context, hcontext, hdenied⟩ := Option.map_eq_some_iff.mp houtcome
  refine ⟨.sensitive, sensitiveProposal, openAppDescriptor, context,
    ⟨⟨"request:2", telegram, harguments, hclass, hopen⟩, hget, ?_⟩, hdenied⟩
  cases hlookup : contextAt sensitiveWorld s.data.database sensitiveProposal pending.sessionId
      (sensitiveWorld.clock (s.consulted + 4)) with
  | error e =>
      rw [hlookup] at hcontext
      cases hcontext
  | ok found =>
      rw [hlookup] at hcontext
      exact congrArg Except.ok (Option.some.inj hcontext)

/-- The executor is invoked for a snapshot although a fresh proposal for the same action is
denied. -/
theorem denied_launch_confirmed :
    ¬ ∀ (W : World) (registry : CapabilityRegistry) (policy : PolicyEngine)
      (before : List Input) (call : Input) (c : String),
      let s := after W registry policy before
      invokedFor W c s call ≠ 0 →
        ∃ pending, s.data.pendingConfirmations c = some pending ∧ ¬ FreshDenied W s pending := by
  intro h
  obtain ⟨pending, hpending, hfresh⟩ :=
    h sensitiveWorld .launching .new overtakenRun (.request acceptance) waitingId
      (by decide +kernel)
  exact hfresh (freshDenied_overtakenRun hpending)

end Halquen.Service.Snapshot
