import Halquen.Service.DryRun

/-!
# Previews

Three requests come to a decision about an action of the trusted user. An evaluation returns the
decision; a dry run and an execution act on it. They reach the policy engine through different
entry points and build its context along different paths. At one time and in one state all of them
come to the same decision (`Decided`), or none of them comes to a decision (`preview_agrees`).
-/

set_option autoImplicit false

namespace Halquen.Service.Preview

open Halquen.Domain.Ids Halquen.Domain.Capability Halquen.Domain.Security
open Halquen.Policy.Engine Halquen.Policy.Authorization Halquen.Policy.Specification
open Halquen.Audit.Receipt Halquen.Capabilities.Executor Halquen.Protocol.Messages
open Halquen.Library.Action Halquen.Library.Action.Act Halquen.Library.Sql
open Halquen.Service.Context Halquen.Service.State Halquen.Service.Proposals
open Halquen.Service.DryRun Halquen.Service.GrantClaims Halquen.Service.GrantLookup
open Halquen.Service.Handler
open Halquen.Storage.Grants Halquen.Storage.Sqlite

/-- The environment in which every reading of the clock gives this time. -/
def frozen (W : World) (nowMs : Int) : World := { W with clock := fun _ => nowMs }

/-! ## The request in two parts -/

/-- An evaluation up to its decision. -/
def evaluateDecision (W : World) (action : ActionRequest) :
    Operation (CapabilityDescriptor × PolicyDecision) := do
  let descriptor ← descriptorFor action
  let proposal ← trustedUserProposal W action
  let context ← policyContext W proposal none
  let policy ← gets fun s => s.data.policy
  return (descriptor, policy.evaluateProposal descriptor proposal context)

/-- The audit record of an evaluation, and its response. -/
def reportDecision (W : World) (evaluated : CapabilityDescriptor × PolicyDecision) :
    Operation ProtocolResponse := do
  let timestamp ← now W
  let id ← generate W .audit
  query W .appendAudit (onAudit (Storage.Audit.appendAudit
    ⟨id, timestamp, .policyEvaluated none evaluated.1.id evaluated.2⟩))
  return .evaluation evaluated.2

/-- The request that simulates an action, or executes it. -/
def processAction (W : World) (simulate : Bool) : ActionRequest → Operation ProtocolResponse :=
  if simulate then dryRunAction W else executeAction W

/-- Response of a request that simulates an action, or executes it. -/
def response (simulate : Bool) (decision : PolicyDecision) (receipt : ExecutionReceipt) :
    ProtocolResponse :=
  if simulate then .dryRun decision receipt else .execution decision receipt

theorem evaluateAction_eq (W : World) (action : ActionRequest) :
    evaluateAction W action = evaluateDecision W action >>= reportDecision W := by
  simp only [evaluateAction, evaluateDecision, Act.bind_assoc]
  rfl

/-- A dry run and an execution decide the action before they act on the decision. -/
theorem processAction_eq (W : World) (simulate : Bool) (action : ActionRequest) :
    processAction W simulate action = decideAction W action >>= fun p => do
      let receipt ← perform W p none simulate
      return response simulate p.evaluation.decision receipt := by
  unfold decideAction
  rw [Act.bind_assoc]
  cases simulate <;> rfl

/-! ## Decisions -/

/-- The decision about an action of the trusted user, as the state before gives it. -/
structure Decided (W : World) (nowMs : Int) (action : ActionRequest) (s : ServiceState)
    (decision : PolicyDecision) : Prop where
  readable : ∀ m ∈ decidingReads action.arguments, W.fails m (s.calls m) = false
  decided : ∃ proposal descriptor context,
    ActionProposal.new action (trustedContextAt s.data.database action.arguments) = .ok proposal ∧
      s.data.registry.get action.capabilityId = some descriptor ∧
      action.arguments.kind = descriptor.arguments ∧
      contextAt W s.data.database proposal none nowMs = .ok context ∧
      decision = s.data.policy.decide descriptor proposal context

section

variable {W : World} {nowMs : Int}

theorem Decided.unique {action : ActionRequest} {s : ServiceState} {d d' : PolicyDecision}
    (h : Decided W nowMs action s d) (h' : Decided W nowMs action s d') : d = d' := by
  obtain ⟨proposal, descriptor, context, hproposal, hdescriptor, -, hcontext, rfl⟩ := h.decided
  obtain ⟨proposal', descriptor', context', hproposal', hdescriptor', -, hcontext', rfl⟩ :=
    h'.decided
  rw [hproposal] at hproposal'
  cases hproposal'
  rw [hdescriptor] at hdescriptor'
  cases hdescriptor'
  rw [hcontext] at hcontext'
  cases hcontext'
  rfl

theorem action_of_new {action : ActionRequest} {context : ActionContext} {proposal : ActionProposal}
    (h : ActionProposal.new action context = .ok proposal) : proposal.action = action := by
  unfold ActionProposal.new at h
  cases hvalid : context.validate with
  | error e =>
      rw [hvalid] at h
      cases h
  | ok u =>
      rw [hvalid] at h
      cases h
      rfl

/-- Where the contract holds, the engine's entry points come to the same decision. -/
theorem decision_authorizeProposal {engine : PolicyEngine} {c : CapabilityDescriptor}
    {p : ActionProposal} (h : Contract c p) (x : ExecutionId) (context : PolicyContext) :
    (engine.authorizeProposal c p x context).decision = engine.decide c p context := by
  unfold PolicyEngine.authorizeProposal
  rw [(contractHolds_iff c p).mpr h, Bool.not_true, if_neg Bool.false_ne_true]
  dsimp only
  split <;> rfl

/-- The policy context is the one that the tables give, unless a call is refused. -/
theorem policyContext_spec (proposal : ActionProposal) (sessionId : Option ChatSessionId)
    (s : ServiceState) :
    Post (policyContext W proposal sessionId) s fun r s' =>
      s'.data = s.data ∧ ∀ context, r = .ok context ↔
        W.fails .securityProfile (s.calls .securityProfile) = false ∧
        W.fails .activePermissionGrantForProposal
          (s.calls .activePermissionGrantForProposal) = false ∧
        contextAt W s.data.database proposal sessionId (W.clock s.consulted) = .ok context := by
  have hquiet := (keeps_quiet_policyContext (W := W) proposal sessionId).post s
  have hreturns := returns_policyContext (W := W) proposal sessionId s
  refine (hquiet.and ((policyContext_ok_iff proposal sessionId s).and hreturns)).mono ?_
  rintro r s' ⟨hquiet, hok, hvalue⟩
  refine ⟨hquiet.data, fun context => ?_⟩
  constructor
  · intro hr
    obtain ⟨hprofile, hgrant, -⟩ := hok.mp ⟨context, hr⟩
    exact ⟨hprofile, hgrant, (hvalue context hr).1⟩
  · rintro ⟨hprofile, hgrant, hcontext⟩
    obtain ⟨context', hr⟩ := hok.mpr ⟨hprofile, hgrant, context, hcontext⟩
    have hcontext' := (hvalue context' hr).1
    rw [hcontext] at hcontext'
    rw [hr, Except.ok.inj hcontext']

/-- An Allow row that the lookup finds is there for a claim at the same time. -/
theorem claimRow_of_lookupRow {query : GrantQuery} {rows : List GrantRow} {row : GrantRow}
    (h : lookupRow query rows = some row) (hallow : row.effect = "allow") :
    (claimRow query rows).isSome = true := by
  rw [Option.isSome_iff_ne_none, Ne, claimRow, firstBy_eq_none_iff]
  intro hnone
  obtain ⟨hmem, -⟩ := firstBy_spec h
  obtain ⟨hrow, hactive⟩ := (mem_select _ _ _).mp hmem
  have hselected : row ∈ select (fun row =>
      (eq (some row.effect) (some "allow")).and (activeFor query row)) rows := by
    rw [mem_select, holds_and, holds_eq]
    exact ⟨hrow, ⟨rfl, congrArg some hallow⟩, hactive⟩
  rw [hnone] at hselected
  cases hselected

theorem descriptorFor_spec (action : ActionRequest) (s : ServiceState) :
    Post (descriptorFor action) s fun r s' => s' = s ∧ ∀ descriptor, r = .ok descriptor ↔
      s.data.registry.get action.capabilityId = some descriptor ∧
        action.arguments.kind = descriptor.arguments := by
  simp only [descriptorFor, post_bind, post_gets, next_ok]
  cases hfound : s.data.registry.get action.capabilityId with
  | none =>
      rw [post_orThrow_none]
      exact ⟨rfl, fun descriptor => iff_of_false (by simp) (by simp)⟩
  | some found =>
      rw [post_orThrow_some, next_ok, post_bind, post_require]
      constructor
      · intro harguments
        refine ⟨rfl, fun descriptor => ⟨?_, ?_⟩⟩
        · rintro ⟨⟩
          exact ⟨rfl, beq_iff_eq.mp harguments⟩
        · rintro ⟨⟨⟩, -⟩
          rfl
      · intro harguments
        refine ⟨rfl, fun descriptor => iff_of_false (by simp) ?_⟩
        rintro ⟨⟨⟩, hkind⟩
        rw [hkind, beq_self_eq_true] at harguments
        cases harguments

/-- An evaluation comes to the decision that the state gives, and to no other. -/
theorem evaluateDecision_spec (action : ActionRequest) (s : ServiceState) :
    Post (evaluateDecision (frozen W nowMs) action) s fun r s' =>
      s'.data = s.data ∧ ∀ decision, (∃ descriptor, r = .ok (descriptor, decision)) ↔
        Decided W nowMs action s decision := by
  unfold evaluateDecision
  refine (descriptorFor_spec action s).bind ?_ ?_
  · rintro descriptor s₀ ⟨rfl, hdescriptor⟩
    obtain ⟨hfound, harguments⟩ := (hdescriptor descriptor).mp rfl
    refine (trustedUserProposal_spec action s₀).bind ?_ ?_
    · rintro proposal s₁ ⟨hquiet, -, hcalls, hproposal⟩
      obtain ⟨hlabel, hnew⟩ := (hproposal proposal).mp rfl
      refine (policyContext_spec proposal none s₁).bind ?_ ?_
      · rintro context s₂ ⟨hdata, hcontext⟩
        obtain ⟨hprofile, hgrant, hfields⟩ := (hcontext context).mp rfl
        rw [hquiet.data] at hdata hfields
        rw [hcalls _ (by decide)] at hprofile hgrant
        -- Every step was taken, so the decision is the one the state gives.
        have hdecided : Decided W nowMs action s₀
            (s₂.data.policy.decide descriptor proposal context) := by
          refine ⟨fun m hm => ?_, proposal, descriptor, context, hnew, hfound, harguments, hfields,
            ?_⟩
          · rcases mem_decidingReads hm with rfl | rfl | rfl
            · exact hlabel hm
            · exact hprofile
            · exact hgrant
          · rw [hdata]
        refine ⟨hdata, fun decision => ⟨?_, fun h => ?_⟩⟩
        · rintro ⟨_, ⟨⟩⟩
          exact hdecided
        · exact ⟨descriptor, congrArg (fun d => Except.ok (descriptor, d)) (hdecided.unique h)⟩
      -- The context could not be read, so the state gives no decision.
      · rintro e s₂ ⟨hdata, hcontext⟩
        refine ⟨hdata.trans hquiet.data, fun decision => iff_of_false nofun fun h => ?_⟩
        obtain ⟨proposal', _, context, hnew', -, -, hfields, -⟩ := h.decided
        rw [hnew] at hnew'
        cases hnew'
        have hok := (hcontext context).mpr ⟨?_, ?_, ?_⟩
        · cases hok
        · rw [hcalls _ (by decide)]
          exact h.readable _ (context_mem_decidingReads _).1
        · rw [hcalls _ (by decide)]
          exact h.readable _ (context_mem_decidingReads _).2
        · rw [hquiet.data]
          exact hfields
    -- There is no proposal, or the label could not be read.
    · rintro e s₁ ⟨hquiet, -, -, hproposal⟩
      refine ⟨hquiet.data, fun decision => iff_of_false nofun fun h => ?_⟩
      obtain ⟨proposal, _, _, hnew, -⟩ := h.decided
      cases (hproposal proposal).mpr ⟨h.readable _, hnew⟩
  -- The capability is not registered, or the arguments do not fit it.
  · rintro e _ ⟨rfl, hdescriptor⟩
    refine ⟨rfl, fun decision => iff_of_false nofun fun h => ?_⟩
    obtain ⟨_, descriptor, _, -, hfound, harguments, -⟩ := h.decided
    cases (hdescriptor descriptor).mpr ⟨hfound, harguments⟩

/-- What a dry run and an execution prepare rests on the decision that the state gives. If a grant
decides it, the claim will select a row. -/
theorem decideAction_decided (action : ActionRequest) (s : ServiceState) :
    Post (decideAction (frozen W nowMs) action) s fun r s' =>
      s'.data = s.data ∧
        (∀ decision, (∃ p, r = .ok p ∧ p.evaluation.decision = decision) ↔
          Decided W nowMs action s decision) ∧
        ∀ p, r = .ok p →
          (p.evaluation.authorization.isSome = true ↔ p.evaluation.decision.outcome = .allow) ∧
          (p.evaluation.decision.reason = .persistentExactAllow →
            (claimRow (queryAt W p.proposal none p.startedAtMs)
              s.data.database.sessions.grants).isSome = true) := by
  refine (trustedUserProposal_spec action s).bind ?_ ?_
  · rintro proposal s₁ ⟨hquiet₁, -, hcalls, hproposal⟩
    obtain ⟨hlabel, hnew⟩ := (hproposal proposal).mp rfl
    have haction := action_of_new hnew
    refine ((prepare_spec _ proposal none s₁).and (prepare_ok_iff _ proposal none s₁)).mono ?_
    rintro r s' ⟨⟨hquiet₂, hprepares⟩, hok⟩
    have hdata : s'.data = s.data := (trans_of Quiet hquiet₁ hquiet₂).data
    rw [hcalls _ (by decide), hcalls _ (by decide), hquiet₁.data, haction] at hok
    -- What is prepared carries the decision that the state gives.
    have hvalue : ∀ p, r = .ok p → Decided W nowMs action s p.evaluation.decision := by
      intro p hp
      obtain ⟨-, hprofile, hgrant, -⟩ := hok.mp ⟨p, hp⟩
      obtain ⟨-, hfound, harguments, -, -, context, hcontext, hevaluation⟩ := hprepares p hp
      rw [hquiet₁.data, haction] at hfound
      rw [haction] at harguments
      rw [hquiet₁.data] at hcontext hevaluation
      refine ⟨fun m hm => ?_, proposal, p.descriptor, context, hnew, hfound, harguments, hcontext,
        ?_⟩
      · rcases mem_decidingReads hm with rfl | rfl | rfl
        · exact hlabel hm
        · exact hprofile
        · exact hgrant
      · rw [hevaluation]
        apply decision_authorizeProposal
        rw [← haction] at hfound harguments
        exact ⟨((CapabilityRegistry.valid_of_get hfound).2).symm, harguments⟩
    refine ⟨hdata, fun decision => ⟨?_, fun h => ?_⟩, fun p hp => ⟨?_, fun hreason => ?_⟩⟩
    · rintro ⟨p, hp, rfl⟩
      exact hvalue p hp
    · obtain ⟨proposal', descriptor, context, hnew', hfound, harguments, hcontext, -⟩ := h.decided
      rw [hnew] at hnew'
      cases hnew'
      -- A decision of the state is prepared, and no other is.
      obtain ⟨p, hp⟩ := hok.mpr ⟨⟨descriptor, hfound, harguments⟩,
        h.readable _ (context_mem_decidingReads _).1, h.readable _ (context_mem_decidingReads _).2,
        context, hcontext⟩
      exact ⟨p, hp, (hvalue p hp).unique h⟩
    · exact (hprepares p hp).coherent.isSome_iff
    · -- The clock stands still, so the row that was looked up can still be claimed.
      have hprepared := hprepares p hp
      obtain ⟨context, hcontext, hevaluation⟩ := hprepared.evaluation
      rw [hevaluation] at hreason
      obtain ⟨row, hrow, hallow⟩ :=
        lookup_of_reason hcontext (exactGrant_of_authorizeProposal hreason)
      rw [hprepared.proposal, hprepared.startedAtMs]
      rw [hquiet₁.data] at hrow
      exact claimRow_of_lookupRow hrow hallow
  · rintro e s₁ ⟨hquiet, -, -, hproposal⟩
    refine ⟨hquiet.data, fun decision => iff_of_false ?_ fun h => ?_, fun p hp => nomatch hp⟩
    · rintro ⟨p, ⟨⟩, -⟩
    · obtain ⟨proposal, _, _, hnew, -⟩ := h.decided
      cases (hproposal proposal).mpr ⟨h.readable _, hnew⟩

/-! ## Receipts -/

/-- A storage call of the request was refused. -/
def Refused (s s' : ServiceState) : Prop :=
  ∃ effects method, s'.data.history = s.data.history ++ effects ∧ .refused method ∈ effects

/-- The history has only grown. -/
def Grows (s s' : ServiceState) : Prop := ∃ effects, s'.data.history = s.data.history ++ effects

theorem grows_of_data {s s' : ServiceState} (h : s'.data = s.data) : Grows s s' :=
  ⟨[], by rw [h, List.append_nil]⟩

theorem Grows.trans {s s₁ s' : ServiceState} (h : Grows s s₁) (h' : Grows s₁ s') : Grows s s' := by
  obtain ⟨effects, heffects⟩ := h
  obtain ⟨effects', heffects'⟩ := h'
  exact ⟨effects ++ effects', by rw [heffects', heffects, List.append_assoc]⟩

theorem Grows.refused {s s₁ s' : ServiceState} (h : Grows s s₁) (h' : Refused s₁ s') :
    Refused s s' := by
  obtain ⟨effects, heffects⟩ := h
  obtain ⟨effects', method, heffects', hmem⟩ := h'
  exact ⟨effects ++ effects', method, by rw [heffects', heffects, List.append_assoc],
    List.mem_append_right effects hmem⟩

/-- The receipt has the decision, and says that nothing was executed exactly when the decision is
not to allow the action. -/
structure Records (decision : PolicyDecision) (receipt : ExecutionReceipt) : Prop where
  policy_decision : receipt.policyDecision = decision
  status : receipt.status = .notExecuted ↔ decision.outcome ≠ .allow

/-- A receipt that records the decision, or a refused storage call. -/
def Reported (decision : PolicyDecision) (s : ServiceState)
    (r : Except Failure ExecutionReceipt) (s' : ServiceState) : Prop :=
  (∃ receipt, r = .ok receipt ∧ Records decision receipt) ∨ (∃ e, r = .error e) ∧ Refused s s'

theorem Reported.of_grows {decision : PolicyDecision} {s s₁ s' : ServiceState}
    {r : Except Failure ExecutionReceipt} (h : Reported decision s₁ r s') (hgrows : Grows s s₁) :
    Reported decision s r s' := by
  rcases h with hok | ⟨herror, hrefused⟩
  · exact .inl hok
  · exact .inr ⟨herror, hgrows.refused hrefused⟩

theorem finishExecution_reported (p : Prepared) (records : List AuditRecord) {settled : Settlement}
    (hstatus : settled.status = .notExecuted ↔ p.evaluation.decision.outcome ≠ .allow)
    (s : ServiceState) :
    Post (finishExecution W p records settled) s (Reported p.evaluation.decision s) := by
  simp only [finishExecution, post_bind, post_now, next_ok, post_query]
  constructor
  · intro _
    exact .inr ⟨⟨_, rfl⟩, _, .recordExecution, rfl, List.mem_singleton_self _⟩
  · intro _
    rw [post_onAudit, Post]
    cases (Storage.Audit.recordExecution (p.receipt settled (W.clock s.consulted)) records
        s.next.data.database.audit).1 with
    | ok _ => exact .inl ⟨_, rfl, rfl, hstatus⟩
    | error e => exact .inr ⟨⟨_, rfl⟩, _, .recordExecution, rfl, List.mem_singleton_self _⟩

/-- The claim step ends early only because a storage call was refused, if there is a row to
claim. -/
theorem claimDeciding_reported (p : Prepared) (sessionId : Option ChatSessionId) (s : ServiceState)
    (hclaim : p.evaluation.decision.reason = .persistentExactAllow →
      (claimRow (queryAt W p.proposal sessionId p.startedAtMs)
        s.data.database.sessions.grants).isSome = true) :
    Post (claimDeciding W p sessionId) s fun r s' =>
      (∃ e, r = .error e) ∧ Refused s s' ∨ r = .ok () ∧ Grows s s' := by
  unfold claimDeciding
  rw [post_ite]
  constructor
  -- The decision rests on a grant, and its row can be claimed.
  · intro hreason
    obtain ⟨row, hrow⟩ := Option.isSome_iff_exists.mp (hclaim hreason)
    simp only [claimPermission, post_bind, post_gets, next_ok, post_query, post_onGrants]
    constructor
    · intro _
      exact .inl ⟨⟨_, rfl⟩, _, .claimPermissionForProposal, rfl, List.mem_singleton_self _⟩
    -- The statement has run.
    · intro _
      cases hresult : claimPermissionForProposal W.serde s.data.database.sessions.grants p.proposal
          (permissionSession p.proposal sessionId) (permissionAgent p.proposal) p.startedAtMs with
      | mk r rows =>
          cases r with
          | error e =>
              exact .inl ⟨⟨_, rfl⟩, _, .claimPermissionForProposal, rfl, List.mem_singleton_self _⟩
          | ok claimed =>
              simp only [Except.mapError, next_ok, post_bind, post_record, post_pure, post_require]
              rcases claimRow_of_claim hresult with ⟨hsome, -⟩ | ⟨-, hnone⟩
              · refine ⟨fun _ => .inr ⟨trivial, ?_⟩, fun h => ?_⟩
                · exact ⟨_, List.append_assoc _ _ _⟩
                · rw [hsome] at h
                  cases h
              · -- The row that was looked up is there.
                have hrow' : claimRow (.ofProposal W.serde p.proposal
                    (permissionSession p.proposal sessionId) (permissionAgent p.proposal)
                    p.startedAtMs) s.data.database.sessions.grants = some row := hrow
                rw [hnone] at hrow'
                cases hrow'
  · intro _
    exact .inr ⟨rfl, grows_of_data rfl⟩

/-- The status says whether something was executed. -/
theorem settlement_status_ne (texts : FailureTexts) (reply : ExecutorReply) :
    (settlement texts reply).status ≠ .notExecuted := by
  cases reply with
  | completed code => cases code <;> nofun
  | rejected error => nofun
  | timedOut => nofun

/-- An evaluated proposal ends with a receipt that records its decision, or with a refused storage
call. -/
theorem perform_reported (p : Prepared) (simulate : Bool) (s : ServiceState)
    (hallowed : p.evaluation.authorization.isSome = true ↔ p.evaluation.decision.outcome = .allow)
    (hclaim : p.evaluation.decision.reason = .persistentExactAllow →
      (claimRow (queryAt W p.proposal none p.startedAtMs)
        s.data.database.sessions.grants).isSome = true) :
    Post (perform W p none simulate) s (Reported p.evaluation.decision s) := by
  unfold perform
  rw [post_bind]
  refine post_auditRecords fun requested _ => ?_
  rw [next_ok]
  have hstart : Grows s (s.advance p.requestedEvents.length) := grows_of_data rfl
  cases hauthorization : p.evaluation.authorization with
  -- Not allowed: the block is recorded, and the receipt says so.
  | none =>
      have hblocked : p.evaluation.decision.outcome ≠ .allow := by
        rw [hauthorization] at hallowed
        exact fun h => Bool.false_ne_true (hallowed.mpr h)
      simp only [post_bind]
      refine post_recordNow fun blocked _ => ?_
      rw [next_ok]
      refine (finishExecution_reported p _ (iff_of_true rfl hblocked) _).mono fun r s' h => ?_
      exact h.of_grows (grows_of_data rfl)
  -- Allowed: the claim may be refused, and then the request fails.
  | some authorization =>
      have hallow : p.evaluation.decision.outcome = .allow := by
        rw [hauthorization] at hallowed
        exact hallowed.mp rfl
      simp only
      refine (claimDeciding_reported p none (s.advance p.requestedEvents.length) hclaim).bind ?_ ?_
      · rintro ⟨⟩ s₁ (⟨⟨e, ⟨⟩⟩, -⟩ | ⟨-, hgrows⟩)
        rw [post_bind]
        refine post_auditRecords fun authorized _ => ?_
        rw [next_ok, post_bind]
        refine post_execute fun reply s₂ hdata _ _ => ?_
        rw [next_ok, post_bind]
        refine post_recordNow fun terminal _ => ?_
        rw [next_ok]
        have hstatus : (settlement proposalTexts reply).status = .notExecuted ↔
            p.evaluation.decision.outcome ≠ .allow :=
          iff_of_false (settlement_status_ne proposalTexts reply) (not_not.mpr hallow)
        have hinvoked : Grows s₁ (s₂.advance 2) :=
          ⟨[.invoked (executorFor simulate) authorization reply],
            congrArg ServiceData.history hdata⟩
        refine (finishExecution_reported p _ hstatus _).mono fun r s' h => ?_
        exact h.of_grows ((hstart.trans hgrows).trans hinvoked)
      · rintro e s₁ (⟨-, hrefused⟩ | ⟨⟨⟩, -⟩)
        exact .inr ⟨⟨e, rfl⟩, hstart.refused hrefused⟩

/-- The decision is returned if its record is written, and only then. -/
theorem reportDecision_spec (evaluated : CapabilityDescriptor × PolicyDecision) (s : ServiceState) :
    Post (reportDecision W evaluated) s fun r s' =>
      r = .ok (.evaluation evaluated.2) ∧ s'.data.history = s.data.history ∨
        (∃ e, r = .error e) ∧ s'.data.history = s.data.history ++ [.refused .appendAudit] := by
  unfold reportDecision
  rw [post_bind, post_now, next_ok, post_bind, post_generate, next_ok, post_bind, post_query]
  constructor
  · intro _
    exact .inr ⟨⟨_, rfl⟩, rfl⟩
  · intro _
    rw [post_onAudit, Post]
    cases (Storage.Audit.appendAudit ⟨.generate .audit (W.stamp s.next.consulted),
        W.clock s.consulted, .policyEvaluated none evaluated.1.id evaluated.2⟩
        s.next.next.data.database.audit).1 with
    | ok _ => exact .inl ⟨rfl, List.append_nil _⟩
    | error e => exact .inr ⟨⟨_, rfl⟩, rfl⟩

/-! ## Agreement -/

/-- An evaluation returns the decision that the state gives, unless its record is refused. -/
theorem evaluateAction_spec (action : ActionRequest) (s : ServiceState) :
    Post (evaluateAction (frozen W nowMs) action) s fun r s' =>
      (∃ decision, Decided W nowMs action s decision ∧
        (r = .ok (.evaluation decision) ∧ s'.data.history = s.data.history ∨
          (∃ e, r = .error e) ∧ s'.data.history = s.data.history ++ [.refused .appendAudit])) ∨
      (∀ decision, ¬ Decided W nowMs action s decision) ∧ ∃ e, r = .error e := by
  rw [evaluateAction_eq]
  refine (evaluateDecision_spec action s).bind ?_ ?_
  · rintro ⟨descriptor, decision⟩ s₁ ⟨hdata, hdecided⟩
    refine (reportDecision_spec (descriptor, decision) s₁).mono fun r s' h => ?_
    rw [hdata] at h
    exact .inl ⟨decision, (hdecided decision).mp ⟨descriptor, rfl⟩, h⟩
  · rintro e s₁ ⟨-, hdecided⟩
    refine .inr ⟨fun decision h => ?_, e, rfl⟩
    obtain ⟨_, ⟨⟩⟩ := (hdecided decision).mpr h

/-- A dry run and an execution act on the decision that the state gives. -/
theorem processAction_spec (simulate : Bool) (action : ActionRequest) (s : ServiceState) :
    Post (processAction (frozen W nowMs) simulate action) s fun r s' =>
      (∃ decision, Decided W nowMs action s decision ∧
        ((∃ receipt, r = .ok (response simulate decision receipt) ∧ Records decision receipt) ∨
          (∃ e, r = .error e) ∧ Refused s s')) ∨
      (∀ decision, ¬ Decided W nowMs action s decision) ∧ ∃ e, r = .error e := by
  rw [processAction_eq]
  refine (decideAction_decided action s).bind ?_ ?_
  · rintro p s₁ ⟨hdata, hdecided, hprepared⟩
    obtain ⟨hallowed, hclaim⟩ := hprepared p rfl
    rw [← hdata] at hclaim
    have hdecision := (hdecided _).mp ⟨p, rfl, rfl⟩
    refine (perform_reported (W := frozen W nowMs) p simulate s₁ hallowed hclaim).bind ?_ ?_
    · rintro receipt s' (⟨_, ⟨⟩, hrecords⟩ | ⟨⟨_, ⟨⟩⟩, -⟩)
      exact .inl ⟨_, hdecision, .inl ⟨receipt, rfl, hrecords⟩⟩
    · rintro e s' (⟨_, ⟨⟩, -⟩ | ⟨-, hrefused⟩)
      exact .inl ⟨_, hdecision, .inr ⟨⟨e, rfl⟩, (grows_of_data hdata).refused hrefused⟩⟩
  · rintro e s₁ ⟨-, hdecided, -⟩
    refine .inr ⟨fun decision h => ?_, e, rfl⟩
    obtain ⟨p, ⟨⟩, -⟩ := (hdecided decision).mpr h

/-- The other two requests come to a decision exactly where the state gives one. -/
theorem decideAction_error_iff (action : ActionRequest) (s : ServiceState) :
    (∃ e, (decideAction (frozen W nowMs) action s).1 = .error e) ↔
      ∀ decision, ¬ Decided W nowMs action s decision := by
  have hdecided : ∀ decision, (∃ p, (decideAction (frozen W nowMs) action s).1 = .ok p ∧
      p.evaluation.decision = decision) ↔ Decided W nowMs action s decision :=
    (decideAction_decided action s).2.1
  cases hresult : (decideAction (frozen W nowMs) action s).1 with
  | ok p =>
      refine iff_of_false nofun fun hnone => ?_
      exact hnone _ ((hdecided _).mp ⟨p, hresult, rfl⟩)
  | error e =>
      refine iff_of_true ⟨e, rfl⟩ fun decision h => ?_
      obtain ⟨p, hp, -⟩ := (hdecided decision).mpr h
      rw [hresult] at hp
      cases hp

end

/-- At one time and in one state: if an evaluation returns a decision, a dry run and an execution
return the same decision with a receipt that records it, unless a storage call is refused. An
evaluation fails exactly where the other two fail before they have a decision, or where its own
audit record is refused. -/
theorem preview_agrees (W : World) (nowMs : Int) (action : ActionRequest) (s : ServiceState) :
    let W := frozen W nowMs
    (∀ decision, (evaluateAction W action s).1 = .ok (.evaluation decision) →
      ∀ simulate,
        (∃ receipt, (processAction W simulate action s).1 =
            .ok (response simulate decision receipt) ∧ Records decision receipt) ∨
          (∃ e, (processAction W simulate action s).1 = .error e) ∧
            Refused s (processAction W simulate action s).2) ∧
    (∀ simulate, processAction W simulate action = decideAction W action >>= fun p => do
      let receipt ← perform W p none simulate
      return response simulate p.evaluation.decision receipt) ∧
    ((∃ e, (evaluateAction W action s).1 = .error e) ↔
      (∃ e, (decideAction W action s).1 = .error e) ∨
        (evaluateAction W action s).2.data.history =
          s.data.history ++ [.refused .appendAudit]) := by
  intro V
  have hevaluate : Post (evaluateAction (frozen W nowMs) action) s _ := evaluateAction_spec action s
  have hdecide : _ ↔ ∀ decision, ¬ Decided W nowMs action s decision :=
    decideAction_error_iff action s
  refine ⟨?_, fun simulate => processAction_eq V simulate action, ?_, ?_⟩
  -- The decision that was returned is the one the state gives, and the action is processed by it.
  · intro decision hok simulate
    have hdecision : Decided W nowMs action s decision := by
      rcases hevaluate with ⟨d, hd, ⟨hreturned, -⟩ | ⟨⟨e, herror⟩, -⟩⟩ | ⟨-, e, herror⟩
      · cases hok.symm.trans hreturned
        exact hd
      · cases hok.symm.trans herror
      · cases hok.symm.trans herror
    have hprocess : Post (processAction (frozen W nowMs) simulate action) s _ :=
      processAction_spec simulate action s
    rcases hprocess with ⟨d, hd, hreported⟩ | ⟨hnone, -⟩
    · rw [← hd.unique hdecision]
      exact hreported
    · exact absurd hdecision (hnone decision)
  -- An evaluation that fails: the state gives no decision, or the record was refused.
  · rintro ⟨e, herror⟩
    rcases hevaluate with ⟨d, -, ⟨hreturned, -⟩ | ⟨-, hrefused⟩⟩ | ⟨hnone, -⟩
    · cases herror.symm.trans hreturned
    · exact .inr hrefused
    · exact .inl (hdecide.mpr hnone)
  · intro hfails
    rcases hevaluate with ⟨d, hd, ⟨-, hwritten⟩ | ⟨herror, -⟩⟩ | ⟨-, herror⟩
    · -- A decision was returned: the state gives one, and nothing was refused.
      rcases hfails with hundecided | hrefused
      · exact absurd hd (hdecide.mp hundecided d)
      · rw [hwritten, List.self_eq_append_right] at hrefused
        cases hrefused
    · exact herror
    · exact herror

/-! ## An evaluation that fails alone -/

/-- No audit record is written. -/
def unrecordedWorld : World :=
  { World.steady (.listed []) with fails := fun method _ => method == .appendAudit }

/-- The state before anything happens. -/
def unrecordedState : ServiceState := after unrecordedWorld .launching .new []

/-- Where the record of an evaluation is refused, the other two requests still come to a
decision. -/
theorem evaluation_fails_alone :
    ¬ ∀ (W : World) (nowMs : Int) (action : ActionRequest) (s : ServiceState),
      (∃ e, (evaluateAction (frozen W nowMs) action s).1 = .error e) ↔
        ∃ e, (decideAction (frozen W nowMs) action s).1 = .error e := by
  intro h
  have hevaluation : (evaluateAction (frozen unrecordedWorld 7) launchTelegram.action
      unrecordedState).1.toOption = none := by decide
  have hdecision : (decideAction (frozen unrecordedWorld 7) launchTelegram.action
      unrecordedState).1.toOption ≠ none := by decide
  have hfails : ∃ e, (evaluateAction (frozen unrecordedWorld 7) launchTelegram.action
      unrecordedState).1 = .error e := by
    cases hresult : (evaluateAction (frozen unrecordedWorld 7) launchTelegram.action
      unrecordedState).1 with
    | ok _ =>
        rw [hresult] at hevaluation
        cases hevaluation
    | error e => exact ⟨e, rfl⟩
  obtain ⟨e, he⟩ := (h unrecordedWorld 7 launchTelegram.action unrecordedState).mp hfails
  rw [he] at hdecision
  exact hdecision rfl

end Halquen.Service.Preview
