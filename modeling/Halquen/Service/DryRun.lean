import Halquen.Service.GrantClaims

/-!
# Dry runs

A dry run goes through the same pipeline as an execution and branches at the executor. The claim of
a grant stands before the branch: a dry run whose decision rests on a grant uses the grant up. In
every other case it leaves all tables but the audit trail as they were (`dry_run_frame_iff`), and no
dry run invokes the configured executor.
-/

set_option autoImplicit false

namespace Halquen.Service.DryRun

open Halquen.Domain.Ids Halquen.Domain.Capability Halquen.Domain.Security
open Halquen.Policy.Engine Halquen.Capabilities.Executor Halquen.Audit.Receipt
open Halquen.Protocol.Messages
open Halquen.Library.Action Halquen.Library.Action.Act Halquen.Library.Sql
open Halquen.Service.Context Halquen.Service.State Halquen.Service.Proposals
open Halquen.Service.GrantClaims Halquen.Service.GrantLookup Halquen.Service.Handler
open Halquen.Storage.Audit Halquen.Storage.Grants Halquen.Storage.Labels Halquen.Storage.Sqlite

/-- An invocation of the executor that the daemon was configured with. -/
def Real : Effect → Prop
  | .invoked .configured .. => True
  | .invoked .dryRun .. | .claimed .. | .issued _ | .refused _ => False

/-- No configured executor was invoked. -/
def Unreal (s s' : ServiceState) : Prop :=
  ∃ effects, s'.data.history = s.data.history ++ effects ∧ ∀ e ∈ effects, ¬ Real e

instance : IsPreorder ServiceState Unreal where
  refl _ := ⟨[], (List.append_nil _).symm, by simp⟩
  trans _ _ _ h h' := by
    obtain ⟨effects, hhistory, hunreal⟩ := h
    obtain ⟨effects', hhistory', hunreal'⟩ := h'
    refine ⟨effects ++ effects', ?_, ?_⟩
    · rw [hhistory', hhistory, List.append_assoc]
    · intro e he
      exact (List.mem_append.mp he).elim (hunreal e) (hunreal' e)

/-- Everything but the audit trail and the history is as it was. -/
def AuditOnly (s s' : ServiceState) : Prop :=
  s'.data = { s.data with
    database := { s.data.database with audit := s'.data.database.audit }
    history := s'.data.history }

instance : IsPreorder ServiceState AuditOnly where
  refl _ := rfl
  trans s s₁ s' h h' := by
    unfold AuditOnly at h h' ⊢
    rw [h'.trans (by rw [h])]

/-- Nothing but the audit trail was written, and nothing was launched. -/
structure Simulated (s s' : ServiceState) : Prop where
  audit : AuditOnly s s'
  unreal : Unreal s s'

instance : IsPreorder ServiceState Simulated where
  refl s := ⟨refl_of AuditOnly s, refl_of Unreal s⟩
  trans _ _ _ h h' := ⟨trans_of AuditOnly h.audit h'.audit, trans_of Unreal h.unreal h'.unreal⟩

/-- A grant can be claimed for an allowed proposal whose decision rests on a grant. -/
structure Spends (W : World) (p : Prepared) (sessionId : Option ChatSessionId) (s : ServiceState) :
    Prop where
  allowed : p.evaluation.decision.outcome = .allow
  reason : p.evaluation.decision.reason = .persistentExactAllow
  succeeds : W.fails .claimPermissionForProposal (s.calls .claimPermissionForProposal) = false
  selected : ∃ row,
    claimRow (queryAt W p.proposal sessionId p.startedAtMs) s.data.database.sessions.grants =
      some row ∧
    changes (claimable row.id p.startedAtMs) s.data.database.sessions.grants = 1

section

variable {W : World} {α : Type}

/-- What is quiet is simulated. -/
theorem simulated_of_quiet (s s' : ServiceState) (h : Quiet s s') : Simulated s s' := by
  refine ⟨?_, [], ?_, by simp⟩
  · unfold AuditOnly
    rw [h.data]
  · rw [h.data, List.append_nil]

theorem keeps_simulated_consult (f : Nat → α) : Keeps Simulated (consult f) :=
  (keeps_quiet_consult f).mono simulated_of_quiet

theorem keeps_simulated_record {effects : List Effect} (h : ∀ e ∈ effects, ¬ Real e) :
    Keeps Simulated (record effects) := fun _ => ⟨rfl, effects, rfl, h⟩

theorem keeps_simulated_auditRecords (createdAtMs : Int) (events : List AuditEvent) :
    Keeps Simulated (auditRecords W createdAtMs events) := by
  induction events with
  | nil => exact keeps_pure _
  | cons event events ih =>
      exact (keeps_simulated_consult _).bind fun _ => ih.bind fun _ => keeps_pure _

theorem keeps_simulated_recordNow (event : AuditEvent) : Keeps Simulated (recordNow W event) :=
  (keeps_simulated_consult _).bind fun _ => (keeps_simulated_consult _).bind fun _ => keeps_pure _

/-- The dry-run executor answers without the environment. -/
theorem keeps_simulated_execute (authorization : ExecutionAuthorization) :
    Keeps Simulated (execute W .dryRun authorization) := by
  refine (keeps_pure _).bind fun reply => (keeps_simulated_record ?_).bind fun _ => keeps_pure _
  simp [Real]

theorem keeps_simulated_finishExecution (p : Prepared) (records : List AuditRecord)
    (settled : Settlement) : Keeps Simulated (finishExecution W p records settled) := by
  refine (keeps_simulated_consult _).bind fun finishedAtMs => Keeps.bind ?_ fun _ => keeps_pure _
  intro s
  change Post (query W _ _) s fun _ s' => Simulated s s'
  rw [post_query]
  constructor
  · intro _
    exact ⟨rfl, [.refused .recordExecution], rfl, by simp [Real]⟩
  · intro _
    rw [post_onAudit]
    refine ⟨rfl, _, rfl, ?_⟩
    intro e he
    split at he
    · rw [List.mem_singleton.mp he]
      exact id
    · cases he

/-- Using one row changes the table. -/
theorem updateRows_use_ne {cond : GrantRow → Truth} {rows : List GrantRow}
    (h : changes cond rows = 1) : updateRows cond GrantRow.use rows ≠ rows := by
  intro hsame
  obtain ⟨row, hrow⟩ := List.length_eq_one_iff.mp h
  have hmem : row ∈ select cond rows := by
    rw [hrow]
    exact List.mem_singleton_self row
  rw [mem_select] at hmem
  obtain ⟨i, hi, hget⟩ := List.mem_iff_getElem.mp hmem.1
  have hused : (updateRows cond GrantRow.use rows)[i]? = some row.use := by
    unfold updateRows
    rw [List.getElem?_map, List.getElem?_eq_getElem hi, hget, Option.map_some, if_pos hmem.2]
  rw [hsame, List.getElem?_eq_getElem hi, hget] at hused
  have hcount := congrArg GrantRow.useCount (Option.some.inj hused)
  simp only [GrantRow.use] at hcount
  omega

/-- A claim changes the table if and only if it selects a row that it can use. -/
theorem claim_changes (rows : List GrantRow) (proposal : ActionProposal)
    (sessionId : Option ChatSessionId) (nowMs : Int) :
    let claim := claimPermissionForProposal W.serde rows proposal
      (permissionSession proposal sessionId) (permissionAgent proposal) nowMs
    let selected := ∃ row, claimRow (queryAt W proposal sessionId nowMs) rows = some row ∧
      changes (claimable row.id nowMs) rows = 1
    selected ∧ claim.2 ≠ rows ∨ ¬ selected ∧ claim.2 = rows := by
  intro claim selected
  cases hrow : claimRow (queryAt W proposal sessionId nowMs) rows with
  | none =>
      refine .inr ⟨?_, congrArg Prod.snd (claimPermissionForProposal_of_none hrow)⟩
      rintro ⟨row, hselected, -⟩
      rw [hrow] at hselected
      cases hselected
  | some row =>
      have hclaim : claim.2 = _ := rows_claimPermissionForProposal hrow
      by_cases hchanges : changes (claimable row.id nowMs) rows = 1
      · refine .inl ⟨⟨row, hrow, hchanges⟩, ?_⟩
        rw [hclaim, if_pos hchanges]
        exact updateRows_use_ne hchanges
      · rw [if_neg hchanges] at hclaim
        refine .inr ⟨?_, hclaim⟩
        rintro ⟨row', hselected, hchanges'⟩
        rw [hrow] at hselected
        cases hselected
        exact hchanges hchanges'

/-- The claim step uses up a grant, or leaves the tables as they were. -/
def Claimed (W : World) (p : Prepared) (sessionId : Option ChatSessionId) (s s' : ServiceState) :
    Prop :=
  Unreal s s' ∧
    (Spends W p sessionId s ∧
        s'.data.database.sessions.grants ≠ s.data.database.sessions.grants ∨
      ¬ Spends W p sessionId s ∧ AuditOnly s s')

/-- A claim may be followed by what is simulated. -/
theorem Claimed.simulated {p : Prepared} {sessionId : Option ChatSessionId} {s s₁ s' : ServiceState}
    (h : Claimed W p sessionId s s₁) (hafter : Simulated s₁ s') : Claimed W p sessionId s s' := by
  refine ⟨trans_of Unreal h.1 hafter.unreal, ?_⟩
  rcases h.2 with ⟨hspends, hne⟩ | ⟨hspends, haudit⟩
  · refine .inl ⟨hspends, ?_⟩
    rw [hafter.audit]
    exact hne
  · exact .inr ⟨hspends, trans_of AuditOnly haudit hafter.audit⟩

/-- A decision that a grant allows claims it. -/
theorem claimDeciding_claimed (p : Prepared) (sessionId : Option ChatSessionId) (s : ServiceState)
    (hallowed : p.evaluation.decision.outcome = .allow) :
    Post (claimDeciding W p sessionId) s fun _ s' => Claimed W p sessionId s s' := by
  have hrefused : ∀ cond : Bool, ∀ e ∈ (if cond then
      [Effect.refused .claimPermissionForProposal] else []), ¬ Real e := by
    intro cond e he
    split at he
    · rw [List.mem_singleton.mp he]
      exact id
    · cases he
  unfold claimDeciding
  rw [post_ite]
  constructor
  -- The decision rests on a stored grant, and a use of it is claimed.
  · intro hreason
    simp only [claimPermission, post_bind, post_gets, next_ok, post_query, post_onGrants]
    constructor
    -- The call failed, so no use was counted.
    · intro hfails
      refine ⟨⟨_, rfl, hrefused _⟩, .inr ⟨fun h => ?_, rfl⟩⟩
      rw [h.succeeds] at hfails
      cases hfails
    · intro hsucceeds
      -- What the statement leaves behind; the rest of the step adds to the history.
      have hstatement : ∀ effects : List Effect, (∀ e ∈ effects, ¬ Real e) →
          Claimed W p sessionId s (s.called .claimPermissionForProposal
            { s.data.database with sessions := { s.data.database.sessions with
              grants := (claimPermissionForProposal W.serde s.data.database.sessions.grants
                p.proposal (permissionSession p.proposal sessionId) (permissionAgent p.proposal)
                  p.startedAtMs).2 } } effects) := by
        intro effects heffects
        refine ⟨⟨effects, rfl, heffects⟩, ?_⟩
        rcases claim_changes (W := W) s.data.database.sessions.grants p.proposal sessionId
          p.startedAtMs with ⟨hselected, hne⟩ | ⟨hselected, heq⟩
        · exact .inl ⟨⟨hallowed, hreason, hsucceeds, hselected⟩, hne⟩
        · refine .inr ⟨fun h => hselected h.selected, ?_⟩
          rw [heq]
          rfl
      cases hr : (claimPermissionForProposal W.serde s.data.database.sessions.grants p.proposal
          (permissionSession p.proposal sessionId) (permissionAgent p.proposal)
          p.startedAtMs).1 with
      | error e => exact hstatement _ (hrefused true)
      | ok claimed =>
          simp only [Except.mapError, next_ok]
          rw [← post_bind]
          have hclaims : ∀ e ∈ claimEffects W p.proposal sessionId p.startedAtMs
              s.data.database.sessions.grants, ¬ Real e := by
            intro e he
            obtain ⟨row, -, rfl⟩ := List.mem_map.mp he
            exact id
          have hrest : Keeps Simulated ((do
              record (claimEffects W p.proposal sessionId p.startedAtMs
                s.data.database.sessions.grants)
              return claimed : Operation (Option PermissionId)) >>= fun claimed =>
                require claimed.isSome
                  (failure .privacyDenied "the exact permission is no longer active")) :=
            Keeps.bind ((keeps_simulated_record hclaims).bind fun _ => keeps_pure _) fun _ =>
              keeps_require _ _
          exact (hrest.post _).mono fun r s' h => (hstatement _ (hrefused false)).simulated h
  · intro hreason
    -- The decision rests on no grant, so there is nothing to claim.
    exact ⟨refl_of Unreal s, .inr ⟨fun h => hreason h.reason, refl_of AuditOnly s⟩⟩

/-- Where a grant can be claimed does not depend on what was read before. -/
theorem spends_of_quiet {p : Prepared} {sessionId : Option ChatSessionId} {s s₁ : ServiceState}
    (h : Quiet s s₁) : Spends W p sessionId s₁ ↔ Spends W p sessionId s := by
  have hcalls := h.calls .claimPermissionForProposal rfl
  constructor
  · intro hspends
    refine ⟨hspends.allowed, hspends.reason, ?_, ?_⟩
    · rw [← hcalls]
      exact hspends.succeeds
    · rw [← h.data]
      exact hspends.selected
  · intro hspends
    refine ⟨hspends.allowed, hspends.reason, ?_, ?_⟩
    · rw [hcalls]
      exact hspends.succeeds
    · rw [h.data]
      exact hspends.selected

theorem Claimed.of_quiet {p : Prepared} {sessionId : Option ChatSessionId} {s s₁ s' : ServiceState}
    (h : Claimed W p sessionId s₁ s') (hquiet : Quiet s s₁) : Claimed W p sessionId s s' := by
  have hbefore := simulated_of_quiet s s₁ hquiet
  refine ⟨trans_of Unreal hbefore.unreal h.1, ?_⟩
  rcases h.2 with ⟨hspends, hne⟩ | ⟨hspends, haudit⟩
  · refine .inl ⟨(spends_of_quiet hquiet).mp hspends, ?_⟩
    rw [← hquiet.data]
    exact hne
  · exact .inr ⟨mt (spends_of_quiet hquiet).mpr hspends, trans_of AuditOnly hbefore.audit haudit⟩

/-- A simulated execution uses up a grant that decided it, and does nothing else. -/
theorem perform_claimed (p : Prepared) (sessionId : Option ChatSessionId) (s : ServiceState)
    (hcoherent : p.evaluation.authorization.isSome = true ↔
      p.evaluation.decision.outcome = .allow) :
    Post (perform W p sessionId true) s fun _ s' => Claimed W p sessionId s s' := by
  unfold perform
  rw [post_bind]
  refine post_auditRecords fun requested _ => ?_
  rw [next_ok]
  have hquiet : Quiet s (s.advance p.requestedEvents.length) := quiet_advance s _
  generalize s.advance p.requestedEvents.length = s₁ at hquiet ⊢
  refine Post.mono ?_ fun _ s' (h : Claimed W p sessionId s₁ s') => h.of_quiet hquiet
  cases hauthorization : p.evaluation.authorization with
  | some authorization =>
      have hallowed := hcoherent.mp (by rw [hauthorization]; rfl)
      refine (claimDeciding_claimed p sessionId s₁ hallowed).bind ?_ fun _ _ h => h
      intro _ s₂ hclaimed
      -- Everything after the claim is simulated or goes to the audit trail.
      have hrest : Keeps Simulated (do
          let authorized ← auditRecords W p.startedAtMs p.authorizedEvents
          let reply ← execute W (executorFor true) authorization
          let terminal ← recordNow W (p.terminalEvent reply)
          finishExecution W p (requested ++ authorized ++ [terminal])
            (settlement proposalTexts reply)) :=
        (keeps_simulated_auditRecords _ _).bind fun _ => (keeps_simulated_execute _).bind fun _ =>
          (keeps_simulated_recordNow _).bind fun _ => keeps_simulated_finishExecution _ _ _
      exact (hrest.post s₂).mono fun _ _ h => hclaimed.simulated h
  -- Without an authorization nothing is claimed, and the block is recorded.
  | none =>
      have hrest : Keeps Simulated (do
          let blocked ← recordNow W p.blockedEvent
          finishExecution W p (requested ++ [blocked]) notExecuted) :=
        (keeps_simulated_recordNow _).bind fun _ => keeps_simulated_finishExecution _ _ _
      have hblocked : ¬ Spends W p sessionId s₁ := by
        intro h
        have hsome := hcoherent.mpr h.allowed
        rw [hauthorization] at hsome
        cases hsome
      exact (hrest.post s₁).mono fun _ _ h => ⟨h.unreal, .inr ⟨hblocked, h.audit⟩⟩

end

/-! ## Decisions -/

/-- Context of an action of the trusted user, as the labels classify its resource. -/
def trustedContextAt (d : Database) : ActionArguments → ActionContext
  | .none => .trustedUser none
  | .openApp app => (ActionContext.trustedUser none).withResource
      ⟨.application, app.asStr, classify d.labels .application app.asStr⟩

/-- Calls that read what decides an action of the trusted user. -/
def decidingReads : ActionArguments → List DbMethod
  | .none => [.securityProfile, .activePermissionGrantForProposal]
  | .openApp _ => [.resourceLabelFor, .securityProfile, .activePermissionGrantForProposal]

/-- What an action of the trusted user is prepared as, for an execution and for a dry run. -/
def decideAction (W : World) (action : ActionRequest) : Operation Prepared := do
  let proposal ← trustedUserProposal W action
  prepare W PolicyEngine.authorizeProposal proposal none

/-- A stored grant decides an action of the trusted user, and a grant can be claimed for it. -/
structure SpendsGrant (W : World) (action : ActionRequest) (s : ServiceState) : Prop where
  readable : ∀ m ∈ decidingReads action.arguments, W.fails m (s.calls m) = false
  spends : ∃ proposal p,
    ActionProposal.new action (trustedContextAt s.data.database action.arguments) = .ok proposal ∧
      Prepares W PolicyEngine.authorizeProposal proposal none s p ∧ Spends W p none s

section

variable {W : World}

theorem mapError_eq_ok {ε ε' α : Type} {f : ε → ε'} {r : Except ε α} {a : α} :
    r.mapError f = .ok a ↔ r = .ok a := by
  cases r <;> simp [Except.mapError]

/-- Two preparations from one state spend the same. -/
theorem spends_of_prepares {asked : ActionProposal} {sessionId : Option ChatSessionId}
    {s : ServiceState} {p p' : Prepared}
    (h : Prepares W PolicyEngine.authorizeProposal asked sessionId s p)
    (h' : Prepares W PolicyEngine.authorizeProposal asked sessionId s p')
    (hspends : Spends W p sessionId s) : Spends W p' sessionId s := by
  -- The state fixes everything about a prepared proposal but its identifiers.
  have hdescriptor : p.descriptor = p'.descriptor :=
    Option.some.inj (h.descriptor.symm.trans h'.descriptor)
  have hproposal : p.proposal = p'.proposal := h.proposal.trans h'.proposal.symm
  have hstarted : p.startedAtMs = p'.startedAtMs := h.startedAtMs.trans h'.startedAtMs.symm
  have hevaluation : p.evaluation = p'.evaluation := by
    obtain ⟨context, hcontext, heq⟩ := h.evaluation
    obtain ⟨context', hcontext', heq'⟩ := h'.evaluation
    rw [hcontext] at hcontext'
    cases hcontext'
    rw [heq, heq', hdescriptor, h.executionId, h'.executionId]
  refine ⟨?_, ?_, hspends.succeeds, ?_⟩
  · rw [← hevaluation]
    exact hspends.allowed
  · rw [← hevaluation]
    exact hspends.reason
  · rw [← hproposal, ← hstarted]
    exact hspends.selected

/-- What is prepared depends on the data and on the number of consultations. -/
theorem prepares_of_data {evaluate : Evaluator} {asked : ActionProposal}
    {sessionId : Option ChatSessionId} {s s₁ : ServiceState} {p : Prepared}
    (h : Prepares W evaluate asked sessionId s₁ p) (hdata : s₁.data = s.data)
    (hconsulted : s₁.consulted = s.consulted) : Prepares W evaluate asked sessionId s p := by
  obtain ⟨hproposal, hdescriptor, harguments, hid, hstarted, hevaluation⟩ := h
  rw [hdata] at hdescriptor hevaluation
  rw [hconsulted] at hid hstarted hevaluation
  exact ⟨hproposal, hdescriptor, harguments, hid, hstarted, hevaluation⟩

theorem mem_decidingReads {arguments : ActionArguments} {m : DbMethod}
    (h : m ∈ decidingReads arguments) :
    m = .resourceLabelFor ∨ m = .securityProfile ∨ m = .activePermissionGrantForProposal := by
  cases arguments <;> simp [decidingReads] at h <;> tauto

theorem context_mem_decidingReads (arguments : ActionArguments) :
    .securityProfile ∈ decidingReads arguments ∧
      .activePermissionGrantForProposal ∈ decidingReads arguments := by
  cases arguments <;> simp [decidingReads]

/-- The proposal of a trusted user's action, or the reason why there is none. -/
theorem trustedUserProposal_spec (action : ActionRequest) (s : ServiceState) :
    Post (trustedUserProposal W action) s fun r s₁ =>
      Quiet s s₁ ∧ s₁.consulted = s.consulted ∧
        (∀ m, m ≠ .resourceLabelFor → s₁.calls m = s.calls m) ∧
          ∀ proposal, r = .ok proposal ↔
            (.resourceLabelFor ∈ decidingReads action.arguments →
                W.fails .resourceLabelFor (s.calls .resourceLabelFor) = false) ∧
              ActionProposal.new action (trustedContextAt s.data.database action.arguments) =
                .ok proposal := by
  refine Post.and ((keeps_quiet_trustedUserProposal action).post s) ?_
  unfold trustedUserProposal
  cases harguments : action.arguments with
  -- An action without a target reads no label.
  | none =>
      simp only [trustedUserContext, post_bind, post_pure, next_ok, post_ofExcept]
      refine ⟨trivial, fun _ _ => trivial, fun proposal => ?_⟩
      rw [mapError_eq_ok]
      simp [decidingReads, trustedContextAt]
  | openApp app =>
      simp only [trustedUserContext, applicationClassification, post_bind]
      rw [post_read rfl]
      have hcalls : ∀ m, m ≠ DbMethod.resourceLabelFor →
          Function.update s.calls DbMethod.resourceLabelFor
            (s.calls DbMethod.resourceLabelFor + 1) m = s.calls m :=
        fun _ hm => Function.update_of_ne hm _ _
      constructor
      -- The label could not be read, so there is no proposal.
      · intro hfails
        refine ⟨rfl, hcalls, fun proposal => iff_of_false ?_ ?_⟩
        · intro h
          cases h
        · intro h
          rw [h.1 (by simp [decidingReads])] at hfails
          cases hfails
      · intro hreads
        refine ⟨rfl, hcalls, fun proposal => ?_⟩
        exact mapError_eq_ok.trans ⟨fun h => ⟨fun _ => hreads, h⟩, fun h => h.2⟩

/-- The policy context is found unless a call is refused or the grant cannot be decoded. -/
theorem policyContext_ok_iff (proposal : ActionProposal) (sessionId : Option ChatSessionId)
    (s : ServiceState) :
    Post (policyContext W proposal sessionId) s fun r _ =>
      (∃ context, r = .ok context) ↔
        W.fails .securityProfile (s.calls .securityProfile) = false ∧
        W.fails .activePermissionGrantForProposal
          (s.calls .activePermissionGrantForProposal) = false ∧
        ∃ context, contextAt W s.data.database proposal sessionId (W.clock s.consulted) =
          .ok context := by
  simp only [policyContext, post_bind, post_now, next_ok]
  rw [post_read rfl]
  constructor
  -- The profile could not be read.
  · intro hprofile
    refine iff_of_false (by rintro ⟨context, h⟩; cases h) ?_
    rintro ⟨h, -⟩
    exact Bool.noConfusion (h.symm.trans hprofile)
  · intro hprofile
    simp only [Except.mapError, next_ok]
    rw [post_bind, post_read rfl]
    -- The first reading call does not count for the second one.
    have hcalls : (s.next.called .securityProfile s.next.data.database []).calls
        .activePermissionGrantForProposal = s.calls .activePermissionGrantForProposal := by
      change Function.update s.calls DbMethod.securityProfile (s.calls .securityProfile + 1)
        DbMethod.activePermissionGrantForProposal = _
      exact Function.update_of_ne (by decide) _ _
    rw [hcalls]
    constructor
    · intro hgrant
      refine iff_of_false (by rintro ⟨context, h⟩; cases h) ?_
      rintro ⟨-, h, -⟩
      exact Bool.noConfusion (h.symm.trans hgrant)
    · intro hgrant
      -- Both calls went through, so the row that is found decides.
      unfold contextAt
      change Next _ _ (Except.mapError _ (activePermissionGrantForProposal W.serde
        s.data.database.sessions.grants proposal (permissionSession proposal sessionId)
          (permissionAgent proposal) (W.clock s.consulted))) _
      cases activePermissionGrantForProposal W.serde s.data.database.sessions.grants proposal
          (permissionSession proposal sessionId) (permissionAgent proposal)
            (W.clock s.consulted) with
      | error e =>
          refine iff_of_false (by rintro ⟨context, h⟩; cases h) ?_
          rintro ⟨-, -, context, h⟩
          cases h
      | ok grant => exact iff_of_true ⟨_, rfl⟩ ⟨hprofile, hgrant, _, rfl⟩

/-- A proposal is prepared unless its capability, its arguments or a call is refused. -/
theorem prepare_ok_iff (evaluate : Evaluator) (proposal : ActionProposal)
    (sessionId : Option ChatSessionId) (s : ServiceState) :
    Post (prepare W evaluate proposal sessionId) s fun r _ =>
      (∃ p, r = .ok p) ↔
        (∃ descriptor, s.data.registry.get proposal.action.capabilityId = some descriptor ∧
          proposal.action.arguments.kind = descriptor.arguments) ∧
        W.fails .securityProfile (s.calls .securityProfile) = false ∧
        W.fails .activePermissionGrantForProposal
          (s.calls .activePermissionGrantForProposal) = false ∧
        ∃ context, contextAt W s.data.database proposal sessionId (W.clock (s.consulted + 3)) =
          .ok context := by
  simp only [prepare, descriptorFor, post_bind, post_gets, next_ok]
  cases hdescriptor : s.data.registry.get proposal.action.capabilityId with
  -- The capability is not registered.
  | none =>
      rw [post_orThrow_none]
      refine iff_of_false (by rintro ⟨p, hp⟩; cases hp) ?_
      rintro ⟨⟨descriptor, h, -⟩, -⟩
      cases h
  | some descriptor =>
      rw [post_orThrow_some, next_ok, post_bind, post_require]
      constructor
      · intro harguments
        rw [beq_iff_eq] at harguments
        -- The arguments fit the descriptor, so all depends on the context.
        simp only [next_ok, post_bind, post_pure, post_generate, post_now]
        refine (policyContext_ok_iff proposal sessionId s.next.next.next).mono ?_
        intro r s' h
        have hcontract : ∃ descriptor', some descriptor = some descriptor' ∧
            proposal.action.arguments.kind = descriptor'.arguments := ⟨descriptor, rfl, harguments⟩
        cases r with
        | ok context => exact iff_of_true ⟨_, rfl⟩ ⟨hcontract, h.mp ⟨context, rfl⟩⟩
        | error e =>
            refine iff_of_false (by rintro ⟨p, hp⟩; cases hp) ?_
            rintro ⟨-, hfound⟩
            obtain ⟨context, hcontext⟩ := h.mpr hfound
            cases hcontext
      · intro harguments
        refine iff_of_false (by rintro ⟨p, hp⟩; cases hp) ?_
        rintro ⟨⟨descriptor', h, hkind⟩, -⟩
        cases h
        rw [hkind, beq_self_eq_true] at harguments
        cases harguments

/-- Where an action is prepared is fixed by the state before, and so is what can be claimed. -/
theorem decideAction_spec (action : ActionRequest) (s : ServiceState) :
    Post (decideAction W action) s fun r s' =>
      Quiet s s' ∧
        ((∃ p, r = .ok p ∧ Spends W p none s') ↔ SpendsGrant W action s) ∧
        ∀ p, r = .ok p →
          (p.evaluation.authorization.isSome = true ↔ p.evaluation.decision.outcome = .allow) := by
  refine (trustedUserProposal_spec action s).bind ?_ ?_
  · rintro proposal s₁ ⟨hquiet₁, hconsulted, hcalls, hproposal⟩
    obtain ⟨hlabel, hnew⟩ := (hproposal proposal).mp rfl
    refine ((prepare_spec _ proposal none s₁).and (prepare_ok_iff _ proposal none s₁)).mono ?_
    rintro r s' ⟨⟨hquiet₂, hprepares⟩, hok⟩
    have hquiet := trans_of Quiet hquiet₁ hquiet₂
    refine ⟨hquiet, ?_, fun p hp => (hprepares p hp).coherent.isSome_iff⟩
    rw [hcalls _ (by decide), hcalls _ (by decide), hconsulted, hquiet₁.data] at hok
    constructor
    -- From the evaluation to the state before: the readings are those of that state.
    · rintro ⟨p, hp, hspends⟩
      obtain ⟨-, hprofile, hgrant, -⟩ := hok.mp ⟨p, hp⟩
      refine ⟨fun m hm => ?_, proposal, p, hnew,
        prepares_of_data (hprepares p hp) hquiet₁.data hconsulted,
          (spends_of_quiet hquiet).mp hspends⟩
      rcases mem_decidingReads hm with rfl | rfl | rfl
      · exact hlabel hm
      · exact hprofile
      · exact hgrant
    -- And back: the same readings prepare the same evaluation.
    · rintro ⟨hreadable, proposal', p', hnew', hprepares', hspends⟩
      rw [hnew] at hnew'
      cases hnew'
      obtain ⟨context, hcontext, -⟩ := hprepares'.evaluation
      obtain ⟨p, hp⟩ := hok.mpr ⟨⟨p'.descriptor, hprepares'.descriptor, hprepares'.arguments⟩,
        hreadable _ (context_mem_decidingReads _).1, hreadable _ (context_mem_decidingReads _).2,
          context, hcontext⟩
      refine ⟨p, hp, (spends_of_quiet hquiet).mpr ?_⟩
      exact spends_of_prepares hprepares'
        (prepares_of_data (hprepares p hp) hquiet₁.data hconsulted) hspends
  -- Without a proposal there is neither an evaluation nor a grant to spend.
  · rintro e s₁ ⟨hquiet, -, -, hproposal⟩
    refine ⟨hquiet, iff_of_false (by rintro ⟨p, hp, -⟩; cases hp) ?_, fun p hp => ?_⟩
    · intro h
      obtain ⟨proposal, p, hnew, -⟩ := h.spends
      have hfound := (hproposal proposal).mpr ⟨h.readable .resourceLabelFor, hnew⟩
      cases hfound
    · cases hp

theorem next_bind {α β γ : Type} (f : α → Operation β) (g : β → Operation γ)
    (Q : Except Failure γ → ServiceState → Prop) :
    Next (fun a => f a >>= g) Q = Next f (Next g Q) := by
  funext r s
  cases r with
  | ok a => exact propext (post_bind g Q)
  | error e => rfl

/-- A dry run decides the action and then simulates it. -/
theorem post_dryRunAction (action : ActionRequest) (s : ServiceState)
    (Q : Except Failure ProtocolResponse → ServiceState → Prop) :
    Post (dryRunAction W action) s Q ↔
      Post (decideAction W action) s (Next (fun p => do
        let receipt ← perform W p none true
        return .dryRun p.evaluation.decision receipt) Q) := by
  unfold dryRunAction dryRunProposal processProposal decideAction
  rw [post_bind, post_bind, next_bind]
  rfl

/-- A dry run uses up a grant exactly when a grant decides the action and can be claimed for it. -/
theorem dryRunAction_spec (action : ActionRequest) (s : ServiceState) :
    Post (dryRunAction W action) s fun _ s' =>
      Unreal s s' ∧
        (SpendsGrant W action s ∧
            s'.data.database.sessions.grants ≠ s.data.database.sessions.grants ∨
          ¬ SpendsGrant W action s ∧ AuditOnly s s') := by
  rw [post_dryRunAction]
  refine (decideAction_spec action s).mono ?_
  rintro r s₁ ⟨hquiet, hspends, hcoherent⟩
  have hbefore := simulated_of_quiet s s₁ hquiet
  cases r with
  -- Nothing was evaluated, so nothing is claimed.
  | error e =>
      refine ⟨hbefore.unreal, .inr ⟨fun h => ?_, hbefore.audit⟩⟩
      obtain ⟨p, hp, -⟩ := hspends.mpr h
      cases hp
  | ok p =>
      have hclaimed : ∀ s', Claimed W p none s₁ s' → Unreal s s' ∧
          (SpendsGrant W action s ∧
              s'.data.database.sessions.grants ≠ s.data.database.sessions.grants ∨
            ¬ SpendsGrant W action s ∧ AuditOnly s s') := by
        intro s' h
        refine ⟨trans_of Unreal hbefore.unreal h.1, ?_⟩
        rcases h.2 with ⟨hclaims, hne⟩ | ⟨hkeeps, haudit⟩
        · refine .inl ⟨hspends.mp ⟨p, rfl, hclaims⟩, ?_⟩
          rw [← hquiet.data]
          exact hne
        · refine .inr ⟨fun h => ?_, trans_of AuditOnly hbefore.audit haudit⟩
          obtain ⟨p', hp', hclaims⟩ := hspends.mpr h
          cases hp'
          exact hkeeps hclaims
      rw [next_ok]
      exact (perform_claimed p none s₁ (hcoherent p rfl)).bind (fun _ s' h => hclaimed s' h)
        fun _ s' h => hclaimed s' h

end

/-! ## The frame of a dry run -/

/-- The states agree on everything that decides an action. -/
structure SameDecision (s t : ServiceState) : Prop where
  audit : AuditOnly s t
  consulted : t.consulted = s.consulted
  calls : t.calls = s.calls

/-- What a dry run may do: nothing was launched, and only the audit trail was written. Whenever the
action is executed later, its decision is the one that it would have had without the dry run. -/
structure DryRunFrame (W : World) (action : ActionRequest) (s s' : ServiceState) : Prop where
  unreal : Unreal s s'
  audit : AuditOnly s s'
  decision : ∀ consulted calls,
    (decideAction W action ⟨s'.data, consulted, calls⟩).1 =
      (decideAction W action ⟨s.data, consulted, calls⟩).1

section

variable {W : World}

theorem respects_sameDecision_consult {α : Type} (f : Nat → α) :
    Respects SameDecision (consult f) := by
  intro s t h
  refine ⟨?_, ⟨h.audit, ?_, h.calls⟩⟩
  · change Except.ok (f s.consulted) = Except.ok (f t.consulted)
    rw [h.consulted]
  · change t.consulted + 1 = s.consulted + 1
    rw [h.consulted]

/-- A reading call of what the audit trail does not hold. -/
theorem respects_sameDecision_read {α : Type} {method : DbMethod}
    {f : Database → Except StorageError α}
    (hf : ∀ (d : Database) (audit : AuditTables), f { d with audit := audit } = f d) :
    Respects SameDecision (State.read W method f) := by
  rintro ⟨data, consulted, calls⟩ ⟨data', consulted', calls'⟩ ⟨haudit, hconsulted, hcalls⟩
  obtain ⟨audit, history, rfl⟩ : ∃ audit history, data' = { data with
      database := { data.database with audit := audit }
      history := history } := ⟨_, _, haudit⟩
  cases hconsulted
  cases hcalls
  unfold State.read query mapError call reads
  simp only [hf]
  split <;> exact ⟨rfl, rfl, rfl, rfl⟩

theorem respects_sameDecision_policyContext (proposal : ActionProposal)
    (sessionId : Option ChatSessionId) :
    Respects SameDecision (policyContext W proposal sessionId) := by
  refine (respects_sameDecision_consult _).bind fun _ => ?_
  refine (respects_sameDecision_read fun _ _ => rfl).bind fun _ => ?_
  exact (respects_sameDecision_read fun _ _ => rfl).bind fun _ => respects_pure _

theorem respects_sameDecision_trustedUserProposal (action : ActionRequest) :
    Respects SameDecision (trustedUserProposal W action) := by
  refine Respects.bind ?_ fun _ => respects_ofExcept _
  cases action.arguments with
  | none => exact respects_pure _
  | openApp app =>
      exact (respects_sameDecision_read fun _ _ => rfl).bind fun _ => respects_pure _

/-- What is decided depends only on what the decision reads. -/
theorem respects_sameDecision_decideAction (action : ActionRequest) :
    Respects SameDecision (decideAction W action) := by
  have hregistry : ∀ s t, SameDecision s t → s.data.registry = t.data.registry := by
    intro s t h
    rw [h.audit]
  have hpolicy : ∀ s t, SameDecision s t → s.data.policy = t.data.policy := by
    intro s t h
    rw [h.audit]
  refine (respects_sameDecision_trustedUserProposal action).bind fun proposal => ?_
  refine Respects.bind ?_ fun _ => ?_
  · refine (respects_gets hregistry).bind fun _ => ?_
    refine (respects_orThrow _ _).bind fun _ => ?_
    exact (respects_require _ _).bind fun _ => respects_pure _
  · refine (respects_sameDecision_consult _).bind fun _ => ?_
    refine (respects_sameDecision_consult _).bind fun _ => ?_
    refine (respects_sameDecision_consult _).bind fun _ => ?_
    refine (respects_sameDecision_policyContext _ _).bind fun _ => ?_
    exact (respects_gets hpolicy).bind fun _ => respects_pure _

end

/-- A dry run never reaches the configured executor, and it keeps its frame exactly when no stored
grant decides the action that a claim can then use up. -/
theorem dry_run_frame_iff (W : World) (action : ActionRequest) (s : ServiceState) :
    Unreal s (dryRunAction W action s).2 ∧
      (DryRunFrame W action s (dryRunAction W action s).2 ↔ ¬ SpendsGrant W action s) := by
  obtain ⟨hunreal, houtcome⟩ : Unreal s (dryRunAction W action s).2 ∧
      (SpendsGrant W action s ∧ (dryRunAction W action s).2.data.database.sessions.grants ≠
          s.data.database.sessions.grants ∨
        ¬ SpendsGrant W action s ∧ AuditOnly s (dryRunAction W action s).2) :=
    dryRunAction_spec action s
  refine ⟨hunreal, ?_⟩
  rcases houtcome with ⟨hspends, hne⟩ | ⟨hkeeps, haudit⟩
  · refine iff_of_false (fun hframe => hne ?_) (not_not.mpr hspends)
    rw [hframe.audit]
  · refine iff_of_true ⟨hunreal, haudit, fun consulted calls => ?_⟩ hkeeps
    have hsame : SameDecision ⟨s.data, consulted, calls⟩
        ⟨(dryRunAction W action s).2.data, consulted, calls⟩ := ⟨haudit, rfl, rfl⟩
    exact (respects_sameDecision_decideAction action _ _ hsame).1.symm

/-! ## A dry run that uses up a grant -/

/-- The steady environment, with an encoding of the scope of the launch. -/
def simulatedWorld : World := .steady (.listed [(.fromProposal launchTelegram, launchTelegramJson)])

/-- The user allows one launch under the strict profile. -/
def allowedOnceRun : List Input := [
  .request ⟨"request:1", .updateSecurityProfile .strict⟩,
  .request ⟨"request:2", .upsertPermissionGrant
    { allowLaunch .once none with resources := launchTelegram.context.resources }⟩]

/-- The state after this. -/
def allowedOnceState : ServiceState := after simulatedWorld .launching .new allowedOnceRun

/-- The launch that the user has allowed once is simulated, and its grant is gone. -/
theorem dry_run_uses_grant :
    ¬ ∀ (W : World) (registry : CapabilityRegistry) (policy : PolicyEngine) (inputs : List Input)
      (action : ActionRequest),
      DryRunFrame W action (after W registry policy inputs)
        (dryRunAction W action (after W registry policy inputs)).2 := by
  intro h
  have hframe : DryRunFrame simulatedWorld launchTelegram.action allowedOnceState
      (dryRunAction simulatedWorld launchTelegram.action allowedOnceState).2 :=
    h simulatedWorld .launching .new allowedOnceRun launchTelegram.action
  have hcounts : ((dryRunAction simulatedWorld launchTelegram.action
      allowedOnceState).2.data.database.sessions.grants.map GrantRow.useCount) = [1] := by
    decide +kernel
  have hbefore : allowedOnceState.data.database.sessions.grants.map GrantRow.useCount = [0] := by
    decide +kernel
  have hsame : (dryRunAction simulatedWorld launchTelegram.action
      allowedOnceState).2.data.database.sessions.grants =
        allowedOnceState.data.database.sessions.grants := by
    rw [hframe.audit]
  rw [hsame, hbefore] at hcounts
  exact absurd hcounts (by decide)

end Halquen.Service.DryRun
