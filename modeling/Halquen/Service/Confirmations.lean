import Halquen.Service.Proposals

/-!
# Confirmations

A proposal that needs a confirmation waits in memory under the confirmation's identifier.
`confirmAction` takes the entry out before anything else; a refusal is recorded against the request
that led to the confirmation, and an acceptance starts an execution of its own, for which the
policy is asked once more.

`allowConfirmation_spec` lists the ways in which an accepted confirmation can end.
-/

set_option autoImplicit false

namespace Halquen.Service.Confirmations

open Halquen.Domain.Ids Halquen.Domain.Capability Halquen.Domain.Security Halquen.Domain.Interaction
open Halquen.Policy.Engine Halquen.Audit.Receipt Halquen.Protocol.Messages
open Halquen.Library.Action Halquen.Library.Action.Act
open Halquen.Service.Context Halquen.Service.State Halquen.Service.Proposals
open Halquen.Storage.Audit Halquen.Storage.Grants Halquen.Storage.Interaction Halquen.Storage.Sqlite

/-- `pending_confirmations.remove(confirmation_id)`. -/
def takePending (confirmationId : String) : Operation PendingConfirmation := do
  let found ← gets fun s => s.data.pendingConfirmations confirmationId
  let pending ← orThrow confirmationExpired found
  modify fun s => { s with data := ServiceData.setPending s.data confirmationId none }
  return pending

/-- Lifetime, session and expiry of the grant that a confirmation leaves behind. -/
def grantTerms (pending : PendingConfirmation) (startedAtMs : Int) (expiresAtMs : Option Int) :
    ConfirmationPersistence →
      Except Failure (PermissionLifetime × Option PermissionSessionScope × Option Int)
  | .once => .error (validation "once confirmation does not create a grant")
  | .session =>
      match permissionSession pending.proposal pending.sessionId with
      | some session => .ok (.session, some session, none)
      | none => .error (validation "session confirmation has no session")
  | .until =>
      match expiresAtMs.filter fun expiry => decide (startedAtMs < expiry) with
      | some expiry => .ok (.until, none, some expiry)
      | none => .error (validation "confirmation expiration must be in the future")
  | .always => .ok (.always, none, none)

/-- The grant for exactly the scope that was confirmed. -/
def confirmedGrant (pending : PendingConfirmation) (startedAtMs : Int) (id : PermissionId)
    (terms : PermissionLifetime × Option PermissionSessionScope × Option Int) :
    PermissionGrant where
  id := id
  effect := .allow
  lifetime := terms.1
  scope := .fromProposal pending.proposal
  session := terms.2.1
  agentId := permissionAgent pending.proposal
  grantedBy := .userExplicit
  grantedAtMs := startedAtMs
  expiresAtMs := terms.2.2
  revokedAtMs := none
  useLimit := none
  useCount := 0

/-- The messages of a failed confirmation. -/
def confirmationTexts : FailureTexts where
  rejected := "executor rejected the confirmed request"
  timedOut := "confirmed capability exceeded its deadline"

/-- One use of an application, as behaviour is stored. -/
def usageEvent (id : BehaviourEventId) (entityId : EntityId) (outcome : BehaviourOutcome)
    (createdAtMs : Int) : IntentUsageEvent where
  id := id
  intent := "open_application"
  entityId := entityId
  outcome := outcome
  contextClass := "application"
  createdAtMs := createdAtMs

section

variable (W : World)

/-- A confirmation that is to be remembered leaves a grant behind. -/
def rememberConfirmation (pending : PendingConfirmation) (startedAtMs : Int)
    (persistence : ConfirmationPersistence) (expiresAtMs : Option Int) : Operation Unit :=
  if persistence = .once then
    return ()
  else do
    let terms ← ofExcept (grantTerms pending startedAtMs expiresAtMs persistence)
    let id ← generate W .permission
    query W .upsertPermissionGrant
      (saveGrant W.serde (confirmedGrant pending startedAtMs id terms))

/-- A successful use of the intent to open an application. -/
def recordUse (app : EntityId) : Operation Unit := do
  let id ← generate W .behaviourEvent
  let createdAtMs ← now W
  query W .recordIntentUsage
    (onInteraction (recordIntentUsage (usageEvent id app .success createdAtMs)))

/-- The application that a reply has opened, if it has. -/
def openedApp (arguments : ActionArguments) : ExecutorReply → Option EntityId
  | .completed _ =>
      match arguments with
      | .openApp app => some app
      | .none => none
  | .rejected _ | .timedOut => none

/-- A completed launch counts as a use of the application. -/
def recordOpened (arguments : ActionArguments) (reply : ExecutorReply) : Operation Unit :=
  match openedApp arguments reply with
  | some app => recordUse W app
  | none => return ()

/-- What is audited before a confirmed execution. -/
def confirmedEvents (p : Prepared) : List AuditEvent :=
  p.requestedEvents ++ p.acceptedEvent :: p.authorizedEvents

/-- The part of `confirm_action` that acts: audit, execution, use, receipt. -/
def performConfirmed (p : Prepared) (authorization : ExecutionAuthorization) :
    Operation ExecutionReceipt := do
  let records ← auditRecords W p.startedAtMs (confirmedEvents p)
  let reply ← execute W .configured authorization
  let terminal ← recordNow W (p.terminalEvent reply)
  recordOpened W p.proposal.action.arguments reply
  finishExecution W p (records ++ [terminal]) (settlement confirmationTexts reply)

/-- What the user is told of a confirmed execution. -/
def confirmationMessage (title : String) (status : ExecutionStatus) : String :=
  if status = .dryRunSucceeded then
    title ++ ": confirmed dry-run completed; no real side effect was performed"
  else
    title ++ ": confirmed execution completed"

/-- The part of `confirm_action` for an accepted confirmation. -/
def allowConfirmation (pending : PendingConfirmation) (persistence : ConfirmationPersistence)
    (expiresAtMs : Option Int) : Operation ProtocolResponse := do
  let p ← prepare W PolicyEngine.authorizeConfirmedProposalOnce pending.proposal pending.sessionId
  let authorization ← orThrow (failure .privacyDenied "policy denied the confirmed action")
    p.evaluation.authorization
  rememberConfirmation W pending p.startedAtMs persistence expiresAtMs
  let receipt ← performConfirmed W p authorization
  return .confirmation
    ⟨some p.executionId, true, confirmationMessage pending.title receipt.status⟩

/-- The user has refused. -/
def refusalEvent (pending : PendingConfirmation) : AuditEvent :=
  .confirmationReceived pending.requestExecutionId pending.proposal.action.capabilityId false
    pending.proposal.context.agent

/-- The part of `confirm_action` for a refused confirmation. -/
def refuseConfirmation (pending : PendingConfirmation) : Operation ProtocolResponse := do
  let record ← recordNow W (refusalEvent pending)
  query W .appendAudit (onAudit (appendAudit record))
  return .confirmation ⟨none, false, "Action cancelled"⟩

/-- `confirm_action`: the confirmation is taken away before it is answered. -/
def confirmAction (confirmationId : String) (allow : Bool) (persistence : ConfirmationPersistence)
    (expiresAtMs : Option Int) : Operation ProtocolResponse := do
  let pending ← takePending confirmationId
  let nowMs ← now W
  require (decide (nowMs ≤ pending.expiresAtMs)) confirmationExpired
  if allow then allowConfirmation W pending persistence expiresAtMs
  else refuseConfirmation W pending

end

/-! ## How an accepted confirmation ends -/

section

variable {W : World}

theorem rememberConfirmation_spec (pending : PendingConfirmation) (startedAtMs : Int)
    (persistence : ConfirmationPersistence) (expiresAtMs : Option Int) (s : ServiceState) :
    Post (rememberConfirmation W pending startedAtMs persistence expiresAtMs) s fun r s' =>
      s.consulted ≤ s'.consulted ∧ (∀ m, m ≠ .upsertPermissionGrant → s'.calls m = s.calls m) ∧
        match r with
        | .ok _ => ∃ rows, s'.data = s.data.withGrants rows
        | .error _ => Stopped s.data s'.data := by
  unfold rememberConfirmation
  rw [post_ite]
  constructor
  · intro _
    exact ⟨Nat.le_refl _, fun _ _ => rfl, s.data.database.sessions.grants, rfl⟩
  intro _
  rw [post_bind, post_ofExcept]
  -- Terms that are not allowed fail before anything is stored.
  cases grantTerms pending startedAtMs expiresAtMs persistence with
  | error e => exact ⟨Nat.le_refl _, fun _ _ => rfl, .refl _⟩
  | ok terms =>
      rw [next_ok, post_bind, post_generate, next_ok, post_query]
      have hcalls : ∀ m, m ≠ .upsertPermissionGrant →
          Function.update s.calls .upsertPermissionGrant
            (s.calls .upsertPermissionGrant + 1) m = s.calls m :=
        fun _ hm => Function.update_of_ne hm _ _
      constructor
      · intro _
        exact ⟨Nat.le_succ _, hcalls, s.data.database.sessions.grants, _, rfl,
          by simp [DbMethod.isWrite, Idle]⟩
      · intro _
        rw [saveGrant, post_onGrants]
        generalize hgrant : confirmedGrant pending startedAtMs _ terms = grant
        have hdata : s.next.data = s.data := rfl
        rw [hdata]
        generalize s.data.database.sessions.grants = rows
        -- Only the grants can have changed.
        cases upsertPermissionGrant W.serde rows grant with
        | error e =>
            exact ⟨Nat.le_succ _, hcalls, rows, _, rfl, by simp [DbMethod.isWrite, Idle]⟩
        | ok rows' =>
            exact ⟨Nat.le_succ _, hcalls, rows', note_nil _⟩

/-- Storing a use of the application is refused. -/
def UsageRefused (W : World) (s : ServiceState) (hi : Nat) (app : EntityId) : Prop :=
  W.fails .recordIntentUsage (s.calls .recordIntentUsage) = true ∨
    ∃ n createdAtMs e, s.consulted ≤ n ∧ n < hi ∧ (recordIntentUsage
      (usageEvent (.generate .behaviourEvent (W.stamp n)) app .success createdAtMs)
        s.data.database.interaction).1 = .error e

/-- What storing the use of an application leaves behind. -/
def Opened (W : World) (arguments : ActionArguments) (reply : ExecutorReply) (s : ServiceState)
    (r : Except Failure Unit) (s' : ServiceState) : Prop :=
  ∃ t, match r with
  | .ok _ => s'.data = s.data.withInteraction t ∧ ∀ app ∈ openedApp arguments reply,
      W.fails .recordIntentUsage (s.calls .recordIntentUsage) = false
  | .error _ => s'.data = (s.data.withInteraction t).note [.refused .recordIntentUsage] ∧
      ∃ app ∈ openedApp arguments reply, UsageRefused W s s'.consulted app

theorem recordOpened_spec (arguments : ActionArguments) (reply : ExecutorReply)
    (s : ServiceState) :
    Post (recordOpened W arguments reply) s fun r s' =>
      s.consulted ≤ s'.consulted ∧ s'.calls .recordExecution = s.calls .recordExecution ∧
        Opened W arguments reply s r s' := by
  unfold recordOpened Opened
  cases hopened : openedApp arguments reply with
  -- Nothing was opened, so there is no use to record.
  | none => exact ⟨Nat.le_refl _, rfl, s.data.database.interaction, rfl, by simp⟩
  | some app =>
      simp only [recordUse, post_bind, post_generate, next_ok, post_now, post_query,
        post_onInteraction]
      constructor
      · intro hfails
        exact ⟨Nat.le_add_right _ 2, rfl, s.data.database.interaction, rfl, app, rfl, .inl hfails⟩
      · intro hfails
        refine ⟨Nat.le_add_right _ 2, rfl, ?_⟩
        generalize hevent :
          usageEvent (.generate .behaviourEvent (W.stamp s.consulted)) app .success
          (W.clock s.next.consulted) = event
        cases hrun : recordIntentUsage event s.data.database.interaction with
        | mk r t =>
            refine ⟨t, ?_⟩
            have hdata : s.next.next.data.database.interaction = s.data.database.interaction := rfl
            rw [hdata, hrun]
            cases r with
            | ok u => exact ⟨note_nil _, fun _ _ => hfails⟩
            | error e =>
                refine ⟨rfl, app, rfl, .inr ⟨s.consulted, W.clock s.next.consulted, e,
                  Nat.le_refl _, Nat.lt_add_of_pos_right Nat.two_pos, ?_⟩⟩
                rw [hevent, hrun]

/-- How the execution of a confirmed proposal ends. -/
def PerformedConfirmed (W : World) (p : Prepared) (authorization : ExecutionAuthorization)
    (s : ServiceState) (r : Except Failure ExecutionReceipt) (s' : ServiceState) : Prop :=
  ∃ reply t,
    let d := (s.data.note [.invoked .configured authorization reply]).withInteraction t
    ((∃ e, r = .error e) ∧ s'.data = d.note [.refused .recordIntentUsage] ∧
        ∃ app ∈ openedApp p.proposal.action.arguments reply, ∃ s₁ : ServiceState,
          s.consulted ≤ s₁.consulted ∧ s₁.calls = s.calls ∧
          s₁.data.database = s.data.database ∧ UsageRefused W s₁ s'.consulted app) ∨
      (∀ app ∈ openedApp p.proposal.action.arguments reply,
          W.fails .recordIntentUsage (s.calls .recordIntentUsage) = false) ∧
        Finished W p (confirmedEvents p ++ [p.terminalEvent reply])
          (settlement confirmationTexts reply) s.consulted s'.consulted
          (W.fails .recordExecution (s.calls .recordExecution)) d r s'.data

theorem performConfirmed_spec (p : Prepared) (authorization : ExecutionAuthorization)
    (s : ServiceState) :
    Post (performConfirmed W p authorization) s fun r s' =>
      PerformedConfirmed W p authorization s r s' ∧ s.consulted ≤ s'.consulted := by
  rw [performConfirmed, post_bind]
  refine post_auditRecords fun records hrecords => ?_
  rw [next_ok, post_bind]
  -- The executor is called once, between the records made before and after it.
  refine post_execute fun reply s₁ hdata₁ hconsulted₁ hcalls₁ => ?_
  have hadvance : (s.advance (confirmedEvents p).length).consulted =
    s.consulted + (confirmedEvents p).length := rfl
  rw [next_ok, post_bind]
  refine post_recordNow fun terminal hterminal => ?_
  have hadvance₁ : (s₁.advance 2).consulted = s₁.consulted + 2 := rfl
  have hcalls : (s₁.advance 2).calls = s.calls := hcalls₁
  have hdata : (s₁.advance 2).data =
    s.data.note [.invoked .configured authorization reply] := hdata₁
  rw [next_ok, post_bind]
  refine (recordOpened_spec p.proposal.action.arguments reply (s₁.advance 2)).mono ?_
  rintro (e | ⟨⟩) s₂ ⟨hconsulted₂, hcalls₂, t, hopened⟩
  -- The use was not recorded: the source returns here, before the execution is recorded.
  · obtain ⟨hdata₂, app, happ, hrefused⟩ := hopened
    rw [hdata] at hdata₂
    refine ⟨⟨reply, t, .inl ⟨⟨e, rfl⟩, hdata₂, app, happ, s₁.advance 2, by omega, hcalls, ?_,
      hrefused⟩⟩, by omega⟩
    rw [hdata]
    rfl
  · obtain ⟨hdata₂, hfails⟩ := hopened
    rw [next_ok]
    have hlast : Written W (s.consulted + (confirmedEvents p).length) s₂.consulted
        [p.terminalEvent reply] [terminal] := hterminal.mono (by omega) (by omega)
    have hwritten := hrecords.append hlast (Nat.le_add_right _ _) (by omega)
    refine (finishExecution_spec p (settlement confirmationTexts reply) s₂ hwritten).mono ?_
    rintro r s' ⟨hfinished, hconsulted⟩
    refine ⟨⟨reply, t, .inr ⟨?_, ?_⟩⟩, by omega⟩
    · rw [hcalls] at hfails
      exact hfails
    · rw [hdata] at hdata₂
      rw [hcalls] at hcalls₂
      rw [← hdata₂, ← hcalls₂]
      exact hfinished

/-- How an accepted confirmation ends: at the latest after the grant has been stored, or with an
execution. -/
def Allowed (W : World) (pending : PendingConfirmation) (s : ServiceState)
    (r : Except Failure ProtocolResponse) (s' : ServiceState) : Prop :=
  ((∃ e, r = .error e) ∧ Stopped s.data s'.data) ∨
    ∃ p authorization rows s₁ r₁,
      Prepares W PolicyEngine.authorizeConfirmedProposalOnce pending.proposal
        pending.sessionId s p ∧
      p.evaluation.authorization = some authorization ∧
      s₁.data = s.data.withGrants rows ∧ s.consulted ≤ s₁.consulted ∧
      (∀ m, m.isWrite = true → m ≠ .upsertPermissionGrant → s₁.calls m = s.calls m) ∧
      PerformedConfirmed W p authorization s₁ r₁ s' ∧
      r = r₁.map fun receipt => .confirmation
        ⟨some p.executionId, true, confirmationMessage pending.title receipt.status⟩

theorem allowConfirmation_spec (pending : PendingConfirmation)
    (persistence : ConfirmationPersistence) (expiresAtMs : Option Int) (s : ServiceState) :
    Post (allowConfirmation W pending persistence expiresAtMs) s fun r s' =>
      Allowed W pending s r s' ∧ s.consulted ≤ s'.consulted := by
  rw [allowConfirmation, post_bind]
  refine (prepare_spec _ _ _ s).mono ?_
  rintro (e | p) s₁ ⟨hquiet, hprepares⟩
  · refine ⟨.inl ⟨⟨e, rfl⟩, ?_⟩, hquiet.consulted⟩
    rw [hquiet.data]
    exact .refl _
  have hp := hprepares p rfl
  rw [next_ok, post_bind]
  cases hauthorization : p.evaluation.authorization with
  -- The policy denies, or asks again: the request ends without a record.
  | none =>
      rw [post_orThrow_none, next_error]
      refine ⟨.inl ⟨⟨_, rfl⟩, ?_⟩, hquiet.consulted⟩
      rw [hquiet.data]
      exact .refl _
  | some authorization =>
      rw [post_orThrow_some, next_ok, post_bind]
      refine (rememberConfirmation_spec pending p.startedAtMs persistence expiresAtMs s₁).mono ?_
      rintro (e | ⟨⟩) s₂ ⟨hconsulted₂, hcalls₂, hdata₂⟩
      · rw [hquiet.data] at hdata₂
        exact ⟨.inl ⟨⟨e, rfl⟩, hdata₂⟩, Nat.le_trans hquiet.consulted hconsulted₂⟩
      obtain ⟨rows, hdata₂⟩ := hdata₂
      rw [hquiet.data] at hdata₂
      rw [next_ok, post_bind]
      refine (performConfirmed_spec p authorization s₂).mono ?_
      rintro r s' ⟨hperformed, hconsulted⟩
      have hle := Nat.le_trans hquiet.consulted hconsulted₂
      -- The answer to the user is made of the receipt, if there is one.
      have hallowed : ∀ r', r' = r.map (fun receipt => .confirmation
          ⟨some p.executionId, true, confirmationMessage pending.title receipt.status⟩) →
          Allowed W pending s r' s' ∧ s.consulted ≤ s'.consulted := by
        intro r' hr'
        refine ⟨.inr ⟨p, authorization, rows, s₂, r, hp, hauthorization, hdata₂, hle, ?_,
          hperformed, hr'⟩, Nat.le_trans hle hconsulted⟩
        intro m hm hne
        rw [hcalls₂ m hne, hquiet.calls m hm]
      cases r with
      | error e => exact hallowed _ rfl
      | ok receipt => exact hallowed _ rfl

/-! ## How a confirmation ends -/

/-- The state after the entry has been taken out and the clock has been read. -/
def taken (s : ServiceState) (confirmationId : String) : ServiceState :=
  { s.next with data := s.data.setPending confirmationId none }

/-- The refusal is recorded, or its record is refused. -/
def Refused (W : World) (pending : PendingConfirmation) (s : ServiceState)
    (r : Except Failure ProtocolResponse) (s' : ServiceState) : Prop :=
  ∃ record : AuditRecord, record.event = refusalEvent pending ∧
    ((∃ response, r = .ok response) ∧
        W.fails .appendAudit (s.calls .appendAudit) = false ∧
        s'.data = s.data.withDatabase
          { s.data.database with audit := s.data.database.audit.append [record] } ∨
      (∃ e, r = .error e) ∧ s'.data = s.data.note [.refused .appendAudit])

theorem refuseConfirmation_spec (pending : PendingConfirmation) (s : ServiceState) :
    Post (refuseConfirmation W pending) s (Refused W pending s) := by
  rw [refuseConfirmation, post_bind]
  refine post_recordNow fun record hrecord => ?_
  have hevent : record.event = refusalEvent pending := by simpa using hrecord.events
  rw [next_ok, post_bind, post_query]
  constructor
  · intro _
    exact ⟨record, hevent, .inr ⟨⟨_, rfl⟩, rfl⟩⟩
  · intro hfails
    rw [post_onAudit]
    refine Post.mono (appendAudit_spec _ record) ?_
    rintro r t (⟨rfl, -, rfl⟩ | ⟨rfl, -, rfl⟩)
    · exact ⟨record, hevent, .inl ⟨⟨_, rfl⟩, hfails, note_nil _⟩⟩
    · exact ⟨record, hevent, .inr ⟨⟨_, rfl⟩, rfl⟩⟩

/-- How a call of `confirmAction` ends: without an entry nothing happens; an entry is taken out,
and then it has expired, is decided by the policy, or is refused. -/
def Answered (W : World) (confirmationId : String) (allow : Bool) (s : ServiceState)
    (r : Except Failure ProtocolResponse) (s' : ServiceState) : Prop :=
  (s.data.pendingConfirmations confirmationId = none ∧ r = .error confirmationExpired ∧ s' = s) ∨
    ∃ pending, s.data.pendingConfirmations confirmationId = some pending ∧
      (pending.expiresAtMs < W.clock s.consulted ∧ r = .error confirmationExpired ∧
          s' = taken s confirmationId ∨
        W.clock s.consulted ≤ pending.expiresAtMs ∧
          (allow = true ∧ Allowed W pending (taken s confirmationId) r s' ∨
            allow = false ∧ Refused W pending (taken s confirmationId) r s'))

theorem confirmAction_spec (confirmationId : String) (allow : Bool)
    (persistence : ConfirmationPersistence) (expiresAtMs : Option Int) (s : ServiceState) :
    Post (confirmAction W confirmationId allow persistence expiresAtMs) s
      (Answered W confirmationId allow s) := by
  simp only [confirmAction, takePending, post_bind, post_gets, next_ok]
  cases hwaiting : s.data.pendingConfirmations confirmationId with
  | none => exact .inl ⟨hwaiting, rfl, rfl⟩
  | some pending =>
      simp only [post_orThrow_some, next_ok, post_bind, post_modify, post_pure, post_now,
        post_require, next_error, decide_eq_true_eq, decide_eq_false_iff_not]
      refine ⟨fun hlive => ?_, fun hexpired => ?_⟩
      · rw [post_ite]
        constructor
        · intro hallow
          refine Post.mono (allowConfirmation_spec pending persistence expiresAtMs _) ?_
          intro r s' hs'
          exact .inr ⟨pending, hwaiting, .inr ⟨hlive, .inl ⟨hallow, hs'.1⟩⟩⟩
        · intro hallow
          refine Post.mono (refuseConfirmation_spec pending _) ?_
          intro r s' hs'
          exact .inr ⟨pending, hwaiting, .inr ⟨hlive, .inr ⟨by simpa using hallow, hs'⟩⟩⟩
      · exact .inr ⟨pending, hwaiting, .inl ⟨not_le.mp hexpired, rfl, rfl⟩⟩

end

end Halquen.Service.Confirmations
