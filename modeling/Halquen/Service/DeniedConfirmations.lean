import Halquen.Service.Durability
import Halquen.Service.GrantLookup

/-!
# Confirmations that the policy denies

An accepted confirmation asks the policy once more. Where the policy now denies the action, the call
leaves through an error before anything is written: nothing is launched, and neither the acceptance
nor the denial goes on record (`denied_confirmation_unrecorded`). A proposal that is denied without
a confirmation is recorded.
-/

set_option autoImplicit false

namespace Halquen.Service.DeniedConfirmations

open Halquen.Domain.Ids Halquen.Domain.Capability Halquen.Domain.Security
open Halquen.Policy.Engine Halquen.Policy.Authorization
open Halquen.Capabilities.Executor Halquen.Audit.Receipt Halquen.Protocol.Messages
open Halquen.Library.Action Halquen.Library.Action.Act
open Halquen.Service.State Halquen.Service.Proposals Halquen.Service.Confirmations
open Halquen.Service.Handler Halquen.Service.SingleUse Halquen.Service.Durability

/-- The policy denies the waiting proposal at the moment at which its confirmation is accepted. -/
def PolicyDenies (W : World) (s : ServiceState) (pending : PendingConfirmation) : Prop :=
  ∃ descriptor context,
    s.data.registry.get pending.proposal.action.capabilityId = some descriptor ∧
    pending.proposal.action.arguments.kind = descriptor.arguments ∧
    contextAt W s.data.database pending.proposal pending.sessionId (W.clock (s.consulted + 4)) =
      .ok context ∧
    (s.data.policy.evaluateProposal descriptor pending.proposal context).outcome = .deny

/-- The audit log has gained a record of this event. -/
def Gains (event : AuditEvent) (s s' : ServiceState) : Prop :=
  ∃ records, s'.data.database.audit.auditRecords = s.data.database.audit.auditRecords ++ records ∧
    event ∈ records.map AuditRecord.event

/-- An acceptance for the action is on record. -/
def AcceptanceRecorded (proposal : ActionProposal) (s s' : ServiceState) : Prop :=
  ∃ executionId, Gains (.confirmationReceived executionId proposal.action.capabilityId true
    proposal.context.agent) s s'

/-- A denial of the action is on record. -/
def DenialRecorded (proposal : ActionProposal) (s s' : ServiceState) : Prop :=
  ∃ executionId, Gains (.actionDenied executionId proposal.action.capabilityId) s s'

/-- No executor was invoked, neither the configured one nor the simulated one. -/
def NothingInvoked (s s' : ServiceState) : Prop :=
  ∀ authorization reply, ¬ Invoked s.data s'.data authorization reply

section

variable {W : World}

theorem not_gains {event : AuditEvent} {s s' : ServiceState}
    (h : s'.data.database.audit = s.data.database.audit) : ¬ Gains event s s' := by
  rintro ⟨records, hrecords, hevent⟩
  rw [h] at hrecords
  obtain rfl := List.append_cancel_left ((List.append_nil _).trans hrecords)
  cases hevent

/-- What the policy denies is not among what it lets through. -/
theorem not_undenied {s : ServiceState} {pending : PendingConfirmation}
    (h : PolicyDenies W s pending) : ¬ Undenied W s pending := by
  obtain ⟨descriptor, context, hdescriptor, -, hcontext, hdenied⟩ := h
  rintro ⟨descriptor', context', hdescriptor', hcontext', hallowed⟩
  rw [hdescriptor] at hdescriptor'
  cases hdescriptor'
  rw [hcontext] at hcontext'
  cases hcontext'
  exact hallowed hdenied

/-- An accepted confirmation whose proposal is denied ends before anything is recorded. -/
theorem confirmAction_denied (confirmationId : String) (persistence : ConfirmationPersistence)
    (expiresAtMs : Option Int) {pending : PendingConfirmation} (s : ServiceState)
    (hwaiting : s.data.pendingConfirmations confirmationId = some pending)
    (hlive : W.clock s.consulted ≤ pending.expiresAtMs) (hdenied : PolicyDenies W s pending) :
    Post (confirmAction W confirmationId true persistence expiresAtMs) s fun _ s' =>
      Stopped (taken s confirmationId).data s'.data := by
  refine (confirmAction_spec confirmationId true persistence expiresAtMs s).mono ?_
  rintro r s' (⟨hnone, -⟩ | ⟨pending', hfound, hanswered⟩)
  · rw [hwaiting] at hnone
    cases hnone
  rw [hwaiting] at hfound
  obtain rfl := Option.some.inj hfound
  rcases hanswered with ⟨hexpired, -⟩ | ⟨-, ⟨-, hallowed⟩ | ⟨hrefused, -⟩⟩
  · exact absurd hlive (Int.not_le.mpr hexpired)
  · rcases hallowed with ⟨-, hstopped⟩ | ⟨p, authorization, rows, s₁, r₁, hp, hauthorization, -⟩
    · exact hstopped
    · exact absurd (undenied_of_prepares hp hauthorization) (not_undenied hdenied)
  · cases hrefused

theorem audit_confirmAction_denied (confirmationId : String)
    (persistence : ConfirmationPersistence) (expiresAtMs : Option Int)
    {pending : PendingConfirmation} (s : ServiceState)
    (hwaiting : s.data.pendingConfirmations confirmationId = some pending)
    (hlive : W.clock s.consulted ≤ pending.expiresAtMs) (hdenied : PolicyDenies W s pending) :
    (confirmAction W confirmationId true persistence expiresAtMs s).2.data.database.audit =
      s.data.database.audit := by
  obtain ⟨rows, effects, hdata, -⟩ :=
    confirmAction_denied confirmationId persistence expiresAtMs s hwaiting hlive hdenied
  rw [hdata]
  rfl

/-- A proposal that is denied on the direct path is recorded as denied. -/
theorem executeProposal_denied (proposal : ActionProposal) (sessionId : Option ChatSessionId)
    (s : ServiceState) :
    Returns (executeProposal W proposal sessionId) s fun response s' =>
      ∀ decision receipt, response = .execution decision receipt → decision.outcome = .deny →
        NothingInvoked s s' ∧ DenialRecorded proposal s s' := by
  unfold executeProposal processProposal
  refine (prepare_spec _ proposal sessionId s).bind ?_ fun e _ _ _ h => (nomatch h)
  rintro p s₁ ⟨hquiet, hprepares⟩
  have hp := hprepares p rfl
  refine (perform_spec p sessionId false s₁).bind ?_ fun e _ _ _ h => (nomatch h)
  rintro receipt s' ⟨hperformed, -⟩ response hresponse decision receipt' hexecution hdenied
  -- The response carries the decision of the evaluation.
  cases hresponse
  cases hexecution
  -- A request that ends early has no receipt, so this one came to a receipt.
  rcases hperformed with ⟨⟨e, he⟩, -⟩ | ⟨d, events, settled, hacted, hfinished⟩
  · cases he
  cases hacted with
  -- What was denied carries no authorization, so nothing was executed.
  | executed authorization reply claimed hauthorization hclaim =>
      have hallowed := hp.coherent.isSome_iff.mp (Option.isSome_of_eq_some hauthorization)
      rw [hdenied] at hallowed
      cases hallowed
  | blocked hauthorization =>
      rw [hquiet.data] at hfinished
      obtain ⟨effects, hhistory, hidle⟩ := history_finished hfinished
      -- The record of the blocked action is all that the request leaves behind.
      refine ⟨fun authorization reply => not_invoked_of_idle hhistory hidle, p.executionId, ?_⟩
      generalize hdata : s'.data = d' at hfinished
      generalize hr : (Except.ok receipt : Except Failure ExecutionReceipt) = r at hfinished
      cases hfinished with
      | unrecorded => cases hr
      | recorded finishedAtMs records hwritten hfails hadmits =>
          refine ⟨records, ?_, ?_⟩
          · change s'.data.database.audit.auditRecords = _
            rw [hdata]
            rfl
          · have hid : p.descriptor.id = proposal.action.capabilityId := by
              have hfound := List.find?_some hp.descriptor
              exact eq_of_beq hfound
            rw [hwritten.events, ← hid]
            simp [Prepared.blockedEvent, hdenied]

end

/-! ## A launch that is denied while its confirmation waits -/

/-- The scope of the launch for which `waitingRun` waits. -/
def waitingScope : PermissionScope where
  capabilityId := openAppDescriptor.id
  arguments := .openApp telegram
  resources := [⟨.application, telegram.asStr, .«local»⟩]
  destination := none

/-- Knows the scope of the launch. -/
def waitingWorld : World :=
  .steady (.listed [(waitingScope, GrantLookup.telegramScopeJson "local")])

/-- After the confirmation was issued, the user denies every launch of the application. -/
def deniedRun : List Input := waitingRun ++ [
  .request ⟨"request:4", .upsertPermissionGrant
    ⟨none, .deny, .always, openAppDescriptor.id, .openApp telegram, waitingScope.resources, none,
      none, none, none⟩⟩]

/-- The state after this. -/
def deniedState : ServiceState := after waitingWorld .launching .new deniedRun

/-- The denial of a waiting proposal, evaluated. -/
def deniesWaiting (s : ServiceState) (pending : PendingConfirmation) : Bool :=
  match contextAt waitingWorld s.data.database pending.proposal pending.sessionId
      (waitingWorld.clock (s.consulted + 4)) with
  | .ok context =>
      decide (pending.proposal.action = ⟨openAppDescriptor.id, .openApp telegram⟩) &&
        decide (s.data.registry.get openAppDescriptor.id = some openAppDescriptor) &&
        decide ((s.data.policy.evaluateProposal openAppDescriptor pending.proposal
          context).outcome = .deny) &&
        decide (waitingWorld.clock s.consulted ≤ pending.expiresAtMs)
  | .error _ => false

theorem policyDenies_of_deniesWaiting {s : ServiceState} {pending : PendingConfirmation}
    (h : deniesWaiting s pending = true) :
    waitingWorld.clock s.consulted ≤ pending.expiresAtMs ∧
      PolicyDenies waitingWorld s pending := by
  unfold deniesWaiting at h
  cases hcontext : contextAt waitingWorld s.data.database pending.proposal pending.sessionId
      (waitingWorld.clock (s.consulted + 4)) with
  | error e =>
      rw [hcontext] at h
      cases h
  | ok context =>
      rw [hcontext] at h
      simp only [Bool.and_eq_true, decide_eq_true_eq] at h
      obtain ⟨⟨⟨haction, hdescriptor⟩, hdenied⟩, hlive⟩ := h
      refine ⟨hlive, openAppDescriptor, context, ?_, ?_, hcontext, hdenied⟩
      · rw [haction]
        exact hdescriptor
      · rw [haction]
        rfl

/-- The confirmation waits, it is live, and the grant stands against it. -/
theorem waiting_deniedState : ∃ pending,
    deniedState.data.pendingConfirmations waitingId = some pending ∧
      waitingWorld.clock deniedState.consulted ≤ pending.expiresAtMs ∧
        PolicyDenies waitingWorld deniedState pending := by
  have hfacts : (deniedState.data.pendingConfirmations waitingId).any
      (deniesWaiting deniedState) = true := by decide +kernel
  obtain ⟨pending, hwaiting, hdenies⟩ := (Option.any_eq_true _ _).mp hfacts
  exact ⟨pending, hwaiting, policyDenies_of_deniesWaiting hdenies⟩

/-! ## What is left unrecorded -/

/-- Whatever the state, an accepted confirmation whose proposal the policy now denies is not
recorded, and neither is its denial. The same proposal is recorded as denied where it is executed
without a confirmation. -/
theorem denied_confirmation_unrecorded (W : World) (s : ServiceState) (confirmationId : String)
    (persistence : ConfirmationPersistence) (expiresAtMs : Option Int)
    (pending : PendingConfirmation)
    (hwaiting : s.data.pendingConfirmations confirmationId = some pending)
    (hlive : W.clock s.consulted ≤ pending.expiresAtMs) (hdenied : PolicyDenies W s pending) :
    let s' := (confirmAction W confirmationId true persistence expiresAtMs s).2
    NothingInvoked s s' ∧
      ¬ AcceptanceRecorded pending.proposal s s' ∧ ¬ DenialRecorded pending.proposal s s' ∧
        ∀ decision receipt s'',
          executeProposal W pending.proposal pending.sessionId s =
            (.ok (.execution decision receipt), s'') →
          decision.outcome = .deny → DenialRecorded pending.proposal s s'' := by
  intro s'
  have hstopped : Stopped (taken s confirmationId).data s'.data :=
    confirmAction_denied confirmationId persistence expiresAtMs s hwaiting hlive hdenied
  have haudit : s'.data.database.audit = s.data.database.audit :=
    audit_confirmAction_denied confirmationId persistence expiresAtMs s hwaiting hlive hdenied
  refine ⟨fun authorization reply hinvoked => ?_, ?_, ?_, ?_⟩
  · exact not_invoked_of_stopped hstopped hinvoked
  · rintro ⟨executionId, hgains⟩
    exact not_gains haudit hgains
  · rintro ⟨executionId, hgains⟩
    exact not_gains haudit hgains
  · intro decision receipt s'' hrun houtcome
    exact ((executeProposal_denied pending.proposal pending.sessionId s).of_eq hrun decision
      receipt rfl houtcome).2

theorem denied_confirmation_unrecorded_waiting : ∃ pending,
    deniedState.data.pendingConfirmations waitingId = some pending ∧
      let s' := (confirmAction waitingWorld waitingId true .once none deniedState).2
      NothingInvoked deniedState s' ∧ ¬ AcceptanceRecorded pending.proposal deniedState s' ∧
        ¬ DenialRecorded pending.proposal deniedState s' := by
  obtain ⟨pending, hwaiting, hlive, hdenied⟩ := waiting_deniedState
  obtain ⟨hnothing, haccepted, hrecorded, -⟩ := denied_confirmation_unrecorded waitingWorld
    deniedState waitingId .once none pending hwaiting hlive hdenied
  exact ⟨pending, hwaiting, hnothing, haccepted, hrecorded⟩

/-- The acceptance and the denial are lost although no call of the storage fails. -/
theorem denied_confirmation_lost :
    ¬ ∀ (W : World) (registry : CapabilityRegistry) (policy : PolicyEngine) (inputs : List Input)
      (s s' : ServiceState) (confirmationId : String) (persistence : ConfirmationPersistence)
      (expiresAtMs : Option Int) (pending : PendingConfirmation),
      (∀ method n, W.fails method n = false) →
      s = after W registry policy inputs →
      s' = (confirmAction W confirmationId true persistence expiresAtMs s).2 →
      s.data.pendingConfirmations confirmationId = some pending →
      W.clock s.consulted ≤ pending.expiresAtMs → PolicyDenies W s pending →
        NothingInvoked s s' ∧
          AcceptanceRecorded pending.proposal s s' ∧ DenialRecorded pending.proposal s s' := by
  intro h
  obtain ⟨pending, hwaiting, hlive, hdenied⟩ := waiting_deniedState
  have haudit := audit_confirmAction_denied waitingId .once none deniedState hwaiting hlive hdenied
  obtain ⟨-, haccepted, -⟩ := h waitingWorld .launching .new deniedRun deniedState _ waitingId .once
    none pending (fun _ _ => rfl) rfl rfl hwaiting hlive hdenied
  obtain ⟨executionId, hgains⟩ := haccepted
  exact not_gains haudit hgains

end Halquen.Service.DeniedConfirmations
