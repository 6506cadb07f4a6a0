import Halquen.Audit.Lifecycle
import Halquen.Service.Walk
import Halquen.Storage.MemoryChain

/-!
# The ledger

What a request may do to the audit tables, to the waiting confirmations and to the history, in steps
(`LedgerStep`): it records an execution with its whole trail, lets a confirmation wait, records the
refusal of a confirmation, notes an event of another family, loses an execution whose record is
refused, or leaves the audit tables as they are. Here are the steps of the storage methods, of the
pipeline of proposals and of the confirmations.
-/

set_option autoImplicit false

namespace Halquen.Service.Ledger

open Halquen.Domain.Ids Halquen.Domain.Capability Halquen.Domain.Security Halquen.Domain.Agent
open Halquen.Domain.Interaction Halquen.Policy.Engine Halquen.Policy.Authorization
open Halquen.Audit.Receipt Halquen.Audit.Lifecycle Halquen.Protocol.Messages
open Halquen.Library.Action Halquen.Library.Action.Act
open Halquen.Service.State Halquen.Service.Proposals Halquen.Service.Confirmations
open Halquen.Service.Chat Halquen.Service.Walk
open Halquen.Storage.Agents (ArgumentsCodec)
open Halquen.Storage.Audit Halquen.Storage.Grants Halquen.Storage.Memory
open Halquen.Storage.MemoryChain Halquen.Storage.Sqlite

/-! ## Steps -/

/-- Number of times that an executor was invoked for an execution. -/
def invocations (x : ExecutionId) (history : List Effect) : Nat :=
  history.countP fun
    | .invoked _ authorization _ => authorization.executionId == x
    | _ => false

/-- Identifiers of the confirmations that were issued. -/
def issuedIds (history : List Effect) : List String :=
  history.filterMap fun
    | .issued confirmationId => some confirmationId
    | _ => none

/-- The record of an execution was refused, or the use of an application on the way to it. -/
def Lost (history : List Effect) : Prop :=
  .refused .recordExecution ∈ history ∨ .refused .recordIntentUsage ∈ history

instance (history : List Effect) : Decidable (Lost history) := inferInstanceAs (Decidable (_ ∨ _))

/-- A new execution with all of its events. -/
structure Records (d : ServiceData) (receipt : ExecutionReceipt) (records : List AuditRecord)
    (invoked : Nat) : Prop where
  generated : ∃ stamp, receipt.executionId = .generate .execution stamp
  admits : d.database.audit.Admits receipt
  trail : Trail receipt.executionId (records.map AuditRecord.event) receipt.status invoked

/-- Only these executors were invoked, and no confirmation was issued. -/
structure Invokes (x : ExecutionId) (invoked : Nat) (effects : List Effect) : Prop where
  count : invocations x effects = invoked
  others : ∀ y, y ≠ x → invocations y effects = 0
  unissued : issuedIds effects = []

/-- One step of the ledger. -/
inductive LedgerStep (d d' : ServiceData) : Prop where
  | quiet (effects : List Effect)
      (hmemory : Remembers d.database.memory d'.database.memory)
      (haudit : d'.database.audit = d.database.audit)
      (hpending : ∀ c p, d'.pendingConfirmations c = some p → d.pendingConfirmations c = some p)
      (hhistory : d'.history = d.history ++ effects) (hidle : ∀ e ∈ effects, Idle e)
  | noted (record : AuditRecord)
      (hmemory : Remembers d.database.memory d'.database.memory)
      (haudit : d'.database.audit = d.database.audit.append [record])
      (hforeign : (∀ item ∈ d.database.memory.items, ∃ stamp, item.id = .generate .memory stamp) →
        Foreign record.event)
      (hpending : d'.pendingConfirmations = d.pendingConfirmations)
      (hhistory : d'.history = d.history)
  | recorded (receipt : ExecutionReceipt) (records : List AuditRecord) (invoked : Nat)
      (effects : List Effect) (hmemory : d'.database.memory = d.database.memory)
      (hrecords : Records d receipt records invoked)
      (haudit : d'.database.audit = d.database.audit.record receipt records)
      (hpending : d'.pendingConfirmations = d.pendingConfirmations)
      (hhistory : d'.history = d.history ++ effects)
      (hinvokes : Invokes receipt.executionId invoked effects)
  | awaiting (receipt : ExecutionReceipt) (records : List AuditRecord) (confirmationId : String)
      (pending : PendingConfirmation) (hmemory : d'.database.memory = d.database.memory)
      (hrecords : Records d receipt records 0)
      (hawaiting : Awaiting receipt.executionId pending.proposal.action.capabilityId
        (records.map AuditRecord.event))
      (hstatus : receipt.status = .notExecuted)
      (hrequest : pending.requestExecutionId = receipt.executionId)
      (hproposal : ∃ correlationId app classification,
        openProposal correlationId app classification = .ok pending.proposal)
      (haudit : d'.database.audit = d.database.audit.record receipt records)
      (hpending : d'.pendingConfirmations =
        Function.update d.pendingConfirmations confirmationId (some pending))
      (hhistory : d'.history = d.history ++ [.issued confirmationId])
  | refused (record : AuditRecord) (confirmationId : String) (pending : PendingConfirmation)
      (hmemory : d'.database.memory = d.database.memory)
      (hwaiting : d.pendingConfirmations confirmationId = some pending)
      (hevent : record.event = refusalEvent pending)
      (haudit : d'.database.audit = d.database.audit.append [record])
      (hpending : d'.pendingConfirmations =
        Function.update d.pendingConfirmations confirmationId none)
      (hhistory : d'.history = d.history)
  | lost (effects : List Effect)
      (hmemory : Remembers d.database.memory d'.database.memory)
      (hpending : ∀ c p, d'.pendingConfirmations c = some p → d.pendingConfirmations c = some p)
      (hhistory : d'.history = d.history ++ effects) (hunissued : issuedIds effects = [])
      (hlost : Lost effects)

/-- The ledger goes from one state to another in steps. -/
def Evolves (s s' : ServiceState) : Prop := Relation.ReflTransGen LedgerStep s.data s'.data

instance : IsPreorder ServiceState Evolves where
  refl _ := .refl
  trans _ _ _ h h' := h.trans h'

/-- One step is a sequence of steps. -/
theorem Evolves.single {s s' : ServiceState} (h : LedgerStep s.data s'.data) : Evolves s s' :=
  Relation.ReflTransGen.single h

/-- No step is one, too. -/
theorem evolves_of_quiet (s s' : ServiceState) (h : Quiet s s') : Evolves s s' := by
  unfold Evolves
  rw [h.data]

/-- An execution that stops before its record is lost. -/
theorem ledgerStep_of_stopped {d d' : ServiceData} (h : Stopped d d') : LedgerStep d d' := by
  obtain ⟨rows, effects, rfl, hidle⟩ := h.data
  exact .quiet effects (refl_of Remembers _) rfl (fun _ _ h => h) rfl hidle

/-! ## Storage methods -/

/-- A storage method that leaves the audit tables alone. -/
structure Apart (d d' : Database) : Prop where
  audit : d'.audit = d.audit
  memory : Remembers d.memory d'.memory

instance : IsPreorder Database Apart where
  refl _ := ⟨rfl, refl_of Remembers _⟩
  trans _ _ _ h h' := ⟨h'.audit.trans h.audit, trans_of Remembers h.memory h'.memory⟩

section

variable {W : World} {α : Type}

/-- Methods on the sessions leave the audit tables alone. -/
theorem keeps_apart_onSessions (m : Act Storage.Sessions.SessionTables StorageError α) :
    Keeps Apart (onSessions m) := fun _ => ⟨rfl, refl_of Remembers _⟩

theorem keeps_apart_onGrants (f : List GrantRow → Except StorageError α × List GrantRow) :
    Keeps Apart (onGrants f) := fun _ => ⟨rfl, refl_of Remembers _⟩

theorem keeps_apart_onMemory {m : Act MemoryTables StorageError α} (h : Keeps Remembers m) :
    Keeps Apart (onMemory m) := fun d => ⟨rfl, h d.memory⟩

/-- A call of such a method is a step that leaves the audit tables alone. -/
theorem keeps_evolves_call {method : DbMethod} {action : Act Database StorageError α}
    (h : Keeps Apart action) : Keeps Evolves (call W method action) :=
  keeps_call_of (fun _ _ _ effects hd hidle =>
    .single (.quiet effects hd.memory hd.audit (fun _ _ h => h) rfl hidle)) h

theorem keeps_evolves_query {method : DbMethod} {action : Act Database StorageError α}
    (h : Keeps Apart action) : Keeps Evolves (query W method action) :=
  (keeps_evolves_call h).mapError _

/-- A record of an event that is not about an execution. -/
theorem keeps_evolves_appendAudit {record : AuditRecord} (h : Foreign record.event) :
    Keeps Evolves (query W .appendAudit (onAudit (appendAudit record))) := by
  intro s
  change Post (query W .appendAudit _) s fun _ s' => Evolves s s'
  rw [post_query]
  constructor
  · intro _
    exact .single (.quiet [.refused .appendAudit] (refl_of Remembers _) rfl (fun _ _ h => h) rfl
      (by simp [Idle]))
  · intro _
    rw [post_onAudit]
    refine Post.mono (appendAudit_spec s.data.database.audit record) ?_
    rintro r t (⟨rfl, -, rfl⟩ | ⟨rfl, -, rfl⟩)
    · exact .single (.noted record (refl_of Remembers _) rfl (fun _ => h) rfl
        (by simp [ServiceState.called, ServiceData.note, ServiceData.withDatabase]))
    · exact .single (.quiet [.refused .appendAudit] (refl_of Remembers _) rfl (fun _ _ h => h) rfl
        (by simp [Idle]))

end

/-! ## Executions -/

/-- Idle effects invoke nothing. -/
theorem invocations_of_idle {effects : List Effect} (h : ∀ e ∈ effects, Idle e)
    (x : ExecutionId) : invocations x effects = 0 := by
  refine List.countP_eq_zero.mpr fun e he => ?_
  cases e with
  | invoked => exact (h _ he).elim
  | claimed | issued | refused => simp

/-- Nor do they issue a confirmation. -/
theorem issuedIds_of_idle {effects : List Effect} (h : ∀ e ∈ effects, Idle e) :
    issuedIds effects = [] := by
  refine List.filterMap_eq_nil_iff.mpr fun e he => ?_
  cases e with
  | issued => exact (h _ he).elim
  | claimed | invoked | refused => rfl

@[simp]
theorem invocations_append (x : ExecutionId) (effects effects' : List Effect) :
    invocations x (effects ++ effects') = invocations x effects + invocations x effects' :=
  List.countP_append

@[simp]
theorem issuedIds_append (effects effects' : List Effect) :
    issuedIds (effects ++ effects') = issuedIds effects ++ issuedIds effects' :=
  List.filterMap_append

/-- Idle effects before one invocation. -/
theorem invokes_one (effects : List Effect) (h : ∀ e ∈ effects, Idle e) (executor : ExecutorKind)
    (authorization : ExecutionAuthorization) (reply : ExecutorReply) :
    Invokes authorization.executionId 1 (effects ++ [.invoked executor authorization reply]) where
  count := by
    rw [invocations_append, invocations_of_idle h]
    simp [invocations]
  others := by
    intro y hy
    rw [invocations_append, invocations_of_idle h]
    simp [invocations, hy.symm]
  unissued := by
    rw [issuedIds_append, issuedIds_of_idle h]
    rfl

theorem invokes_none (x : ExecutionId) : Invokes x 0 [] := ⟨rfl, fun _ _ => rfl, rfl⟩

/-- What the ledger needs to know of an evaluated proposal. -/
structure Traceable (p : Prepared) : Prop where
  generated : ∃ stamp, p.executionId = .generate .execution stamp
  authorization : ∀ a, p.evaluation.authorization = some a → a.executionId = p.executionId
  capability : p.descriptor.id = p.proposal.action.capabilityId

section

variable {W : World}

theorem traceable_of_prepares {evaluate : Evaluator} {asked : ActionProposal}
    {sessionId : Option ChatSessionId} {s : ServiceState} {p : Prepared}
    (h : Prepares W evaluate asked sessionId s p)
    (hcoherent : Coherent p.evaluation p.executionId p.descriptor asked) : Traceable p where
  generated := ⟨_, h.executionId⟩
  authorization a ha := (hcoherent.carries a ha).1
  capability := by
    rw [h.proposal]
    exact (Capabilities.Executor.CapabilityRegistry.valid_of_get h.descriptor).2

variable (p : Prepared)

theorem opening_requestedEvents : Opening p.executionId p.descriptor.id p.requestedEvents :=
  .intro _ _ _ _

theorem start_authorizedEvents : Start p.executionId p.descriptor.id p.authorizedEvents :=
  .intro _

theorem ends_terminalEvent (texts : FailureTexts) (reply : ExecutorReply) :
    Ends p.executionId p.descriptor.id (p.terminalEvent reply) (settlement texts reply).status := by
  cases reply with
  | completed code => cases code <;> exact .completed _
  | rejected error => exact .failed _
  | timedOut => exact .timedOut _

theorem trail_blocked :
    Trail p.executionId (p.requestedEvents ++ [p.blockedEvent]) notExecuted.status 0 := by
  unfold Prepared.blockedEvent
  cases p.evaluation.decision.outcome with
  | confirm => exact .awaiting (opening_requestedEvents p)
  | deny | allow => exact .denied (opening_requestedEvents p)

theorem trail_executed (reply : ExecutorReply) :
    Trail p.executionId (p.requestedEvents ++ p.authorizedEvents ++ [p.terminalEvent reply])
      (settlement proposalTexts reply).status 1 :=
  .executed (opening_requestedEvents p) (start_authorizedEvents p) (ends_terminalEvent p _ reply)

theorem trail_confirmed (reply : ExecutorReply) :
    Trail p.executionId (confirmedEvents p ++ [p.terminalEvent reply])
      (settlement confirmationTexts reply).status 1 :=
  .confirmed (opening_requestedEvents p) _ (start_authorizedEvents p) (ends_terminalEvent p _ reply)

variable {p}

/-- The recording of an execution after these effects, or its loss. -/
theorem ledgerStep_of_finished (hp : Traceable p) {events : List AuditEvent}
    {settled : Settlement} {lo hi : Nat} {fails : Bool} {d d₁ d' : ServiceData} {invoked : Nat}
    {effects : List Effect} {r : Except Failure ExecutionReceipt}
    (h : Finished W p events settled lo hi fails d₁ r d')
    (htrail : Trail p.executionId events settled.status invoked)
    (hinvokes : Invokes p.executionId invoked effects)
    (hmemory : d₁.database.memory = d.database.memory)
    (haudit : d₁.database.audit = d.database.audit)
    (hpending : d₁.pendingConfirmations = d.pendingConfirmations)
    (hhistory : d₁.history = d.history ++ effects) : LedgerStep d d' := by
  cases h with
  -- The receipt and its records were written together.
  | recorded finishedAtMs records hwritten hfails hadmits =>
      rw [haudit] at hadmits
      refine .recorded (p.receipt settled finishedAtMs) records invoked effects hmemory
        ⟨hp.generated, hadmits, ?_⟩ ?_ hpending hhistory hinvokes
      · rw [hwritten.events]
        exact htrail
      · change d₁.database.audit.record _ records = _
        rw [haudit]
  -- The write was refused: the effects remain, but the trail does not have them.
  | unrecorded =>
      refine .lost (effects ++ [.refused .recordExecution]) ?_ ?_ ?_ ?_ (.inl (by simp))
      · change Remembers _ d₁.database.memory
        rw [hmemory]
        exact refl_of Remembers _
      · intro c q hq
        rw [← hpending]
        exact hq
      · change d₁.history ++ _ = _
        rw [hhistory, List.append_assoc]
      · rw [issuedIds_append, hinvokes.unissued]
        rfl

theorem ledgerStep_of_performed (hp : Traceable p) {sessionId : Option ChatSessionId}
    {executor : ExecutorKind} {s s' : ServiceState} {r : Except Failure ExecutionReceipt}
    (h : Performed W p sessionId executor s r s') : LedgerStep s.data s'.data := by
  rcases h with ⟨-, hstopped⟩ | ⟨d₁, events, settled, hacted, hfinished⟩
  · exact ledgerStep_of_stopped hstopped
  cases hacted with
  | blocked hblocked =>
      exact ledgerStep_of_finished hp hfinished (trail_blocked p) (invokes_none _) rfl rfl rfl
        (List.append_nil _).symm
  | executed authorization reply claimed hauthorization hclaim =>
      obtain ⟨rows, effects, rfl, hidle⟩ := hclaim.stopped.data
      refine ledgerStep_of_finished hp hfinished (trail_executed p reply) ?_ rfl rfl rfl
        (List.append_assoc _ _ _)
      rw [← hp.authorization authorization hauthorization]
      exact invokes_one effects hidle _ _ _

theorem keeps_evolves_processProposal (proposal : ActionProposal)
    (sessionId : Option ChatSessionId) (simulate : Bool) :
    Keeps Evolves (processProposal W proposal sessionId simulate) := by
  intro s
  change Post (processProposal W proposal sessionId simulate) s fun _ s' => Evolves s s'
  refine (prepare_spec _ proposal sessionId s).bind (fun p s₁ hp => ?_) fun e s₁ hp => ?_
  · obtain ⟨hquiet, hprepares⟩ := hp
    have hp := hprepares p rfl
    have htraceable := traceable_of_prepares hp hp.coherent
    refine (perform_spec p sessionId simulate s₁).bind (fun _ s' hs' => ?_) fun _ s' hs' => ?_
    all_goals
      exact trans_of Evolves (evolves_of_quiet _ _ hquiet)
        (.single (ledgerStep_of_performed htraceable hs'.1))
  · exact evolves_of_quiet _ _ hp.1

/-! ## Confirmations -/

theorem ledgerStep_withGrants (d : ServiceData) (rows : List GrantRow) :
    LedgerStep d (d.withGrants rows) :=
  .quiet [] (refl_of Remembers _) rfl (fun _ _ h => h) (List.append_nil _).symm (by simp)

theorem ledgerStep_withInteraction (d : ServiceData) (t : Storage.Interaction.InteractionTables) :
    LedgerStep d (d.withInteraction t) :=
  .quiet [] (refl_of Remembers _) rfl (fun _ _ h => h) (List.append_nil _).symm (by simp)

theorem ledgerStep_taken (d : ServiceData) (confirmationId : String) :
    LedgerStep d (d.setPending confirmationId none) := by
  refine .quiet [] (refl_of Remembers _) rfl (fun c q hq => ?_) (List.append_nil _).symm (by simp)
  simp only [ServiceData.setPending, Function.update_apply] at hq
  split at hq
  · cases hq
  · exact hq

theorem ledgerStep_of_performedConfirmed {p : Prepared} (hp : Traceable p)
    {authorization : ExecutionAuthorization}
    (hauthorization : p.evaluation.authorization = some authorization) {s s' : ServiceState}
    {r : Except Failure ExecutionReceipt} (h : PerformedConfirmed W p authorization s r s') :
    LedgerStep s.data s'.data := by
  obtain ⟨reply, t, ⟨-, hdata, -⟩ | ⟨-, hfinished⟩⟩ := h
  · rw [hdata]
    exact .lost [.invoked .configured authorization reply, .refused .recordIntentUsage]
      (refl_of Remembers _) (fun _ _ h => h) (List.append_assoc _ _ _) rfl (.inr (by simp))
  · refine ledgerStep_of_finished hp hfinished (trail_confirmed p reply) ?_ rfl rfl rfl rfl
    rw [← hp.authorization authorization hauthorization]
    exact invokes_one [] (by simp) _ _ _

theorem evolves_of_allowed {pending : PendingConfirmation} {s s' : ServiceState}
    {r : Except Failure ProtocolResponse} (h : Allowed W pending s r s') : Evolves s s' := by
  rcases h with ⟨-, hstopped⟩ |
    ⟨p, authorization, rows, s₁, r₁, hp, hauthorization, hdata₁, -, -, hperformed, -⟩
  · exact .single (ledgerStep_of_stopped hstopped)
  · have htraceable := traceable_of_prepares hp hp.coherent_confirmed
    have hstep := ledgerStep_of_performedConfirmed htraceable hauthorization hperformed
    rw [hdata₁] at hstep
    exact .head (ledgerStep_withGrants _ rows) (.single hstep)

theorem keeps_evolves_confirmAction (confirmationId : String) (allow : Bool)
    (persistence : ConfirmationPersistence) (expiresAtMs : Option Int) :
    Keeps Evolves (confirmAction W confirmationId allow persistence expiresAtMs) := by
  intro s
  change Post (confirmAction W confirmationId allow persistence expiresAtMs) s
    fun _ s' => Evolves s s'
  refine Post.mono (confirmAction_spec confirmationId allow persistence expiresAtMs s) ?_
  rintro r s' (⟨-, -, rfl⟩ | ⟨pending, hwaiting, hanswered⟩)
  · exact refl_of Evolves s'
  have htaken : Relation.ReflTransGen LedgerStep s.data (s.data.setPending confirmationId none) :=
    .single (ledgerStep_taken _ _)
  rcases hanswered with ⟨-, -, rfl⟩ | ⟨-, ⟨-, hallowed⟩ | ⟨-, record, hevent, hrefused⟩⟩
  · exact htaken
  · exact htaken.trans (evolves_of_allowed hallowed)
  · rcases hrefused with ⟨-, -, hdata⟩ | ⟨-, hdata⟩
    · exact .single (.refused record confirmationId pending (hdata ▸ rfl) hwaiting hevent
        (hdata ▸ rfl) (hdata ▸ rfl) (hdata ▸ rfl))
    · refine htaken.tail ?_
      rw [hdata]
      exact .quiet [.refused .appendAudit] (refl_of Remembers _) rfl (fun _ _ h => h) rfl
        (by simp [Idle])

end

end Halquen.Service.Ledger
