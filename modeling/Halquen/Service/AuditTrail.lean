import Halquen.Service.Evolution

/-!
# The audit trail of every run

As long as no execution is lost, the audit tables account for every execution of a run: one row,
the events of one lifecycle in their order, and as many invocations of an executor as the events
say (`audit_trail`). The invariant is kept by every step of the ledger (`accounted_step`).
-/

set_option autoImplicit false

namespace Halquen.Service.AuditTrail

open Halquen.Domain.Ids Halquen.Domain.Capability Halquen.Domain.Security Halquen.Policy.Engine
open Halquen.Capabilities.Executor
open Halquen.Audit.Receipt Halquen.Audit.Lifecycle
open Halquen.Library.Sql
open Halquen.Service.State Halquen.Service.Confirmations Halquen.Service.Handler
open Halquen.Service.Ledger Halquen.Service.Evolution
open Halquen.Storage.Audit Halquen.Storage.Sqlite

/-! ## Events of an execution -/

/-- Audit records about an execution, in the order of their insertion. -/
def recordsOf (t : AuditTables) (x : ExecutionId) : List AuditRecord :=
  t.auditRecords.filter fun record => record.event.subject == x.asStr

/-- Rows of the events table about an execution, in the order of their insertion. -/
def eventsOf (t : AuditTables) (x : ExecutionId) : List EventRow :=
  t.events.filter fun row => row.subjectId == some x.asStr

/-- Events of the audit records about an execution. -/
def eventsAbout (t : AuditTables) (x : ExecutionId) : List AuditEvent :=
  (recordsOf t x).map AuditRecord.event

section

variable (t : AuditTables) (x : ExecutionId) (records : List AuditRecord)

theorem eventsAbout_append (h : ∀ record ∈ records, record.event.subject = x.asStr) :
    eventsAbout (t.append records) x = eventsAbout t x ++ records.map AuditRecord.event := by
  have hall : records.filter (fun record => record.event.subject == x.asStr) = records :=
    List.filter_eq_self.mpr fun record hrecord => by simpa using h record hrecord
  simp [eventsAbout, recordsOf, AuditTables.append, hall]

theorem eventsAbout_append_of_ne (h : ∀ record ∈ records, record.event.subject ≠ x.asStr) :
    eventsAbout (t.append records) x = eventsAbout t x := by
  have hnone : records.filter (fun record => record.event.subject == x.asStr) = [] :=
    List.filter_eq_nil_iff.mpr fun record hrecord => by simpa using h record hrecord
  simp [eventsAbout, recordsOf, AuditTables.append, hnone]

/-- A record about another subject leaves the events of an execution. -/
theorem eventsAbout_noted {record : AuditRecord} (h : record.event.subject ≠ x.asStr) :
    eventsAbout (t.append [record]) x = eventsAbout t x := by
  refine eventsAbout_append_of_ne _ _ _ fun r hr => ?_
  obtain rfl := List.mem_singleton.mp hr
  exact h

theorem eventsAbout_record (receipt : ExecutionReceipt) :
    eventsAbout (t.record receipt records) x = eventsAbout (t.append records) x := rfl

end

/-- Every event row belongs to an audit record, in the same order. -/
def Mirrored (t : AuditTables) : Prop := t.events = t.auditRecords.map EventRow.ofRecord

theorem Mirrored.append {t : AuditTables} (h : Mirrored t) (records : List AuditRecord) :
    Mirrored (t.append records) := by
  simp only [Mirrored, AuditTables.append, List.map_append]
  rw [h]

theorem kinds_eventsOf {t : AuditTables} (h : Mirrored t) (x : ExecutionId) :
    (eventsOf t x).map EventRow.eventKind = (eventsAbout t x).map AuditEvent.kind := by
  unfold eventsOf eventsAbout recordsOf
  rw [h, List.filter_map, List.map_map, List.map_map]
  have hsubject : ((fun row : EventRow => row.subjectId == some x.asStr) ∘ EventRow.ofRecord) =
      fun record : AuditRecord => record.event.subject == x.asStr := by
    funext record
    simp [EventRow.ofRecord]
  rw [hsubject]
  rfl

/-! ## Invariant -/

/-- The tables and the history tell the lifecycle of an execution. -/
structure Documented (d : ServiceData) (receipt : ExecutionReceipt) : Prop where
  trail : Trail receipt.executionId (eventsAbout d.database.audit receipt.executionId)
    receipt.status (invocations receipt.executionId d.history)
  interval : receipt.startedAtMs ≤ receipt.finishedAtMs

/-- The audit tables account for everything that was executed. -/
structure Accounted (d : ServiceData) : Prop where
  mirrored : Mirrored d.database.audit
  items : ∀ item ∈ d.database.memory.items, ∃ stamp, item.id = .generate .memory stamp
  generated : ∀ receipt ∈ d.database.audit.executions,
    ∃ stamp, receipt.executionId = .generate .execution stamp
  distinct : UniqueKey ExecutionReceipt.executionId d.database.audit.executions
  documented : ∀ receipt ∈ d.database.audit.executions, Documented d receipt
  owned : ∀ record ∈ d.database.audit.auditRecords, Foreign record.event ∨
    ∃ receipt ∈ d.database.audit.executions, record.event.subject = receipt.executionId.asStr
  invoked : ∀ x, invocations x d.history ≠ 0 →
    ∃ receipt ∈ d.database.audit.executions, receipt.executionId = x

/-- Every waiting confirmation belongs to an execution that waits for it, and to no other. -/
structure Awaited (d : ServiceData) : Prop where
  waiting : ∀ c pending, d.pendingConfirmations c = some pending →
    ∃ receipt ∈ d.database.audit.executions, receipt.executionId = pending.requestExecutionId ∧
      receipt.status = .notExecuted ∧
      Awaiting receipt.executionId pending.proposal.action.capabilityId
        (eventsAbout d.database.audit receipt.executionId)
  apart : ∀ c c' pending pending', d.pendingConfirmations c = some pending →
    d.pendingConfirmations c' = some pending' →
    pending.requestExecutionId = pending'.requestExecutionId → c = c'

section

variable {d d' : ServiceData}

/-- Fewer confirmations wait, and the audit tables are the same. -/
theorem Awaited.fewer (h : Awaited d) (haudit : d'.database.audit = d.database.audit)
    (hpending : ∀ c p, d'.pendingConfirmations c = some p → d.pendingConfirmations c = some p) :
    Awaited d' where
  waiting c pending hc := by
    rw [haudit]
    exact h.waiting c pending (hpending c pending hc)
  apart c c' pending pending' hc hc' :=
    h.apart c c' pending pending' (hpending c pending hc) (hpending c' pending' hc')

theorem items_kept (h : Accounted d)
    (hmemory : Storage.MemoryChain.Remembers d.database.memory d'.database.memory) :
    ∀ item ∈ d'.database.memory.items, ∃ stamp, item.id = .generate .memory stamp := by
  intro item hitem
  rcases hmemory.items item hitem with ⟨old, hold, hid⟩ | hgenerated
  · rw [← hid]
    exact h.items old hold
  · exact hgenerated

/-- A trail to which nothing is added still tells its lifecycle. -/
theorem Documented.same {receipt : ExecutionReceipt} (h : Documented d receipt)
    (hevents : eventsAbout d'.database.audit receipt.executionId =
      eventsAbout d.database.audit receipt.executionId)
    (hcount : invocations receipt.executionId d'.history =
      invocations receipt.executionId d.history) : Documented d' receipt where
  trail := by
    rw [hevents, hcount]
    exact h.trail
  interval := h.interval

/-- The audit tables are the same and no executor was invoked. -/
theorem Accounted.same (h : Accounted d)
    (hmemory : Storage.MemoryChain.Remembers d.database.memory d'.database.memory)
    (haudit : d'.database.audit = d.database.audit)
    (hinvocations : ∀ x, invocations x d'.history = invocations x d.history) : Accounted d' where
  mirrored := haudit ▸ h.mirrored
  items := items_kept h hmemory
  generated := haudit ▸ h.generated
  distinct := haudit ▸ h.distinct
  documented receipt hreceipt := by
    rw [haudit] at hreceipt
    exact (h.documented receipt hreceipt).same (by rw [haudit]) (hinvocations _)
  owned := haudit ▸ h.owned
  invoked x hx := by
    rw [hinvocations] at hx
    rw [haudit]
    exact h.invoked x hx

/-- A foreign record is about no execution of the tables. -/
theorem Accounted.subject_ne (h : Accounted d) {receipt : ExecutionReceipt}
    (hreceipt : receipt ∈ d.database.audit.executions) {event : AuditEvent}
    (hforeign : Foreign event) : event.subject ≠ receipt.executionId.asStr := by
  obtain ⟨stamp, hstamp⟩ := h.generated receipt hreceipt
  rw [hstamp]
  exact hforeign stamp

/-- One more record, and no invocation. -/
theorem Accounted.noted (h : Accounted d) {record : AuditRecord}
    (hmemory : Storage.MemoryChain.Remembers d.database.memory d'.database.memory)
    (haudit : d'.database.audit = d.database.audit.append [record])
    (howned : Foreign record.event ∨ ∃ receipt ∈ d.database.audit.executions,
      record.event.subject = receipt.executionId.asStr)
    (hdocumented : ∀ receipt ∈ d.database.audit.executions, Documented d' receipt)
    (hhistory : d'.history = d.history) : Accounted d' := by
  have hexecutions : d'.database.audit.executions = d.database.audit.executions := by
    rw [haudit]
    rfl
  constructor
  · rw [haudit]
    exact h.mirrored.append [record]
  · exact items_kept h hmemory
  · exact hexecutions ▸ h.generated
  · exact hexecutions ▸ h.distinct
  · exact hexecutions ▸ hdocumented
  · intro other hother
    rw [hexecutions]
    rw [haudit] at hother
    rcases List.mem_append.mp hother with hother | hother
    · exact h.owned other hother
    · obtain rfl := List.mem_singleton.mp hother
      exact howned
  · intro x hx
    rw [hexecutions]
    rw [hhistory] at hx
    exact h.invoked x hx

/-- A foreign record leaves the tables accounted. -/
theorem Accounted.foreign (h : Accounted d) {record : AuditRecord}
    (hmemory : Storage.MemoryChain.Remembers d.database.memory d'.database.memory)
    (haudit : d'.database.audit = d.database.audit.append [record])
    (hforeign : Foreign record.event) (hhistory : d'.history = d.history) : Accounted d' := by
  refine h.noted hmemory haudit (.inl hforeign) (fun receipt hreceipt => ?_) hhistory
  refine (h.documented receipt hreceipt).same ?_ (by rw [hhistory])
  rw [haudit, eventsAbout_noted _ _ (h.subject_ne hreceipt hforeign)]

/-- What waits goes on waiting after a record about none of the executions. -/
theorem Awaited.noted (h : Awaited d) {record : AuditRecord}
    (haudit : d'.database.audit = d.database.audit.append [record])
    (hothers : ∀ receipt ∈ d.database.audit.executions,
      record.event.subject ≠ receipt.executionId.asStr)
    (hpending : d'.pendingConfirmations = d.pendingConfirmations) : Awaited d' where
  waiting c pending hc := by
    rw [hpending] at hc
    obtain ⟨receipt, hreceipt, hid, hstatus, hawaiting⟩ := h.waiting c pending hc
    rw [haudit]
    refine ⟨receipt, hreceipt, hid, hstatus, ?_⟩
    rw [eventsAbout_noted _ _ (hothers receipt hreceipt)]
    exact hawaiting
  apart := by
    rw [hpending]
    exact h.apart

/-! ## A new execution -/

/-- Nothing is known of an execution that can still be added. -/
theorem Accounted.eventsAbout_fresh (h : Accounted d) {receipt : ExecutionReceipt}
    {records : List AuditRecord} {invoked : Nat} (hnew : Records d receipt records invoked) :
    eventsAbout d.database.audit receipt.executionId = [] := by
  obtain ⟨stamp, hstamp⟩ := hnew.generated
  have hnone : ∀ record ∈ d.database.audit.auditRecords,
      record.event.subject ≠ receipt.executionId.asStr := by
    intro record hrecord
    rcases h.owned record hrecord with hforeign | ⟨other, hother, hsubject⟩
    · rw [hstamp]
      exact hforeign stamp
    · rw [hsubject]
      exact fun heq => hnew.admits.fresh other hother (TypedId.ext heq)
  unfold eventsAbout recordsOf
  rw [List.filter_eq_nil_iff.mpr fun record hrecord => by simpa using hnone record hrecord]
  rfl

theorem Accounted.invocations_fresh (h : Accounted d) {receipt : ExecutionReceipt}
    {records : List AuditRecord} {invoked : Nat} (hnew : Records d receipt records invoked) :
    invocations receipt.executionId d.history = 0 := by
  by_contra hne
  obtain ⟨other, hother, heq⟩ := h.invoked receipt.executionId hne
  exact hnew.admits.fresh other hother heq

theorem Records.subject {receipt : ExecutionReceipt} {records : List AuditRecord} {invoked : Nat}
    (hnew : Records d receipt records invoked) :
    ∀ record ∈ records, record.event.subject = receipt.executionId.asStr :=
  fun _ hrecord => hnew.trail.subject _ (List.mem_map_of_mem hrecord)

/-- The records of a new execution are about no older one. -/
theorem Records.eventsAbout_old {receipt old : ExecutionReceipt} {records : List AuditRecord}
    {invoked : Nat} (hnew : Records d receipt records invoked)
    (hold : old ∈ d.database.audit.executions) :
    eventsAbout (d.database.audit.record receipt records) old.executionId =
      eventsAbout d.database.audit old.executionId := by
  rw [eventsAbout_record]
  refine eventsAbout_append_of_ne _ _ _ fun record hrecord heq => ?_
  rw [Records.subject hnew record hrecord] at heq
  exact hnew.admits.fresh old hold (TypedId.ext heq.symm)

theorem Accounted.eventsAbout_new (h : Accounted d) {receipt : ExecutionReceipt}
    {records : List AuditRecord} {invoked : Nat} (hnew : Records d receipt records invoked) :
    eventsAbout (d.database.audit.record receipt records) receipt.executionId =
      records.map AuditRecord.event := by
  rw [eventsAbout_record, eventsAbout_append _ _ _ (Records.subject hnew),
    h.eventsAbout_fresh hnew, List.nil_append]

/-- A new execution is documented, and the older ones stay so. -/
theorem Accounted.recorded (h : Accounted d) {receipt : ExecutionReceipt}
    {records : List AuditRecord} {invoked : Nat} {effects : List Effect}
    (hmemory : d'.database.memory = d.database.memory)
    (hnew : Records d receipt records invoked)
    (haudit : d'.database.audit = d.database.audit.record receipt records)
    (hhistory : d'.history = d.history ++ effects)
    (hcount : invocations receipt.executionId effects = invoked)
    (hothers : ∀ y, y ≠ receipt.executionId → invocations y effects = 0) : Accounted d' := by
  -- One more execution; its records and its invocations are about no other one.
  have hexecutions : d'.database.audit.executions = d.database.audit.executions ++ [receipt] := by
    rw [haudit]
    rfl
  constructor
  · rw [haudit]
    exact h.mirrored.append records
  · rw [hmemory]
    exact h.items
  · rw [hexecutions]
    intro old hold
    rcases List.mem_append.mp hold with hold | hold
    · exact h.generated old hold
    · obtain rfl := List.mem_singleton.mp hold
      exact hnew.generated
  · rw [hexecutions]
    exact h.distinct.append hnew.admits.fresh
  · rw [hexecutions]
    intro old hold
    rcases List.mem_append.mp hold with hold | hold
    · refine (h.documented old hold).same ?_ ?_
      · rw [haudit, Records.eventsAbout_old hnew hold]
      · rw [hhistory, invocations_append, hothers _ (hnew.admits.fresh old hold), Nat.add_zero]
    · obtain rfl := List.mem_singleton.mp hold
      refine ⟨?_, hnew.admits.interval⟩
      rw [haudit, h.eventsAbout_new hnew, hhistory, invocations_append,
        h.invocations_fresh hnew, hcount, Nat.zero_add]
      exact hnew.trail
  -- The new records are owned by the new execution.
  · intro record hrecord
    rw [hexecutions]
    rw [haudit] at hrecord
    rcases List.mem_append.mp hrecord with hrecord | hrecord
    · rcases h.owned record hrecord with hforeign | ⟨old, hold, hsubject⟩
      · exact .inl hforeign
      · exact .inr ⟨old, List.mem_append_left _ hold, hsubject⟩
    · exact .inr ⟨receipt, List.mem_append_right _ (List.mem_singleton_self _),
        Records.subject hnew record hrecord⟩
  -- What was invoked is the new execution or one that was known.
  · intro x hx
    rw [hexecutions]
    by_cases heq : x = receipt.executionId
    · exact ⟨receipt, List.mem_append_right _ (List.mem_singleton_self _), heq.symm⟩
    · rw [hhistory, invocations_append, hothers x heq, Nat.add_zero] at hx
      obtain ⟨old, hold, hid⟩ := h.invoked x hx
      exact ⟨old, List.mem_append_left _ hold, hid⟩

/-- What waited before a new execution still waits. -/
theorem Awaited.waiting_recorded (h : Awaited d) {receipt : ExecutionReceipt}
    {records : List AuditRecord} {invoked : Nat} (hnew : Records d receipt records invoked)
    (haudit : d'.database.audit = d.database.audit.record receipt records) {c : String}
    {pending : PendingConfirmation} (hc : d.pendingConfirmations c = some pending) :
    ∃ old ∈ d'.database.audit.executions, old.executionId = pending.requestExecutionId ∧
      old.status = .notExecuted ∧
      Awaiting old.executionId pending.proposal.action.capabilityId
        (eventsAbout d'.database.audit old.executionId) := by
  obtain ⟨old, hold, hid, hstatus, hawaiting⟩ := h.waiting c pending hc
  rw [haudit]
  refine ⟨old, List.mem_append_left _ hold, hid, hstatus, ?_⟩
  rw [Records.eventsAbout_old hnew hold]
  exact hawaiting

/-! ## Steps -/

theorem Awaited.recorded (h : Awaited d) {receipt : ExecutionReceipt}
    {records : List AuditRecord} {invoked : Nat} (hnew : Records d receipt records invoked)
    (haudit : d'.database.audit = d.database.audit.record receipt records)
    (hpending : d'.pendingConfirmations = d.pendingConfirmations) : Awaited d' where
  waiting c pending hc := by
    rw [hpending] at hc
    exact h.waiting_recorded hnew haudit hc
  apart := by
    rw [hpending]
    exact h.apart

/-- A new confirmation waits for an execution for which no other one waits. -/
theorem Awaited.issued (h : Awaited d) (ha : Accounted d) {receipt : ExecutionReceipt}
    {records : List AuditRecord} (hnew : Records d receipt records 0)
    (haudit : d'.database.audit = d.database.audit.record receipt records)
    {confirmationId : String} {pending : PendingConfirmation}
    (hawaiting : Awaiting receipt.executionId pending.proposal.action.capabilityId
      (records.map AuditRecord.event))
    (hstatus : receipt.status = .notExecuted)
    (hrequest : pending.requestExecutionId = receipt.executionId)
    (hpending : d'.pendingConfirmations =
      Function.update d.pendingConfirmations confirmationId (some pending)) : Awaited d' := by
  have hother : ∀ c q, c ≠ confirmationId → d'.pendingConfirmations c = some q →
      d.pendingConfirmations c = some q := by
    intro c q hne hc
    rwa [hpending, Function.update_of_ne hne] at hc
  have hself : ∀ q, d'.pendingConfirmations confirmationId = some q → q = pending := by
    intro q hq
    rw [hpending, Function.update_self, Option.some.injEq] at hq
    exact hq.symm
  -- Nothing waited for the new execution before.
  have hfresh : ∀ c q, d.pendingConfirmations c = some q →
      q.requestExecutionId ≠ pending.requestExecutionId := by
    intro c q hc heq
    obtain ⟨old, hold, hid, -⟩ := h.waiting c q hc
    exact hnew.admits.fresh old hold (hid.trans (heq.trans hrequest))
  constructor
  · intro c q hc
    by_cases hne : c = confirmationId
    · subst hne
      obtain rfl := hself q hc
      rw [haudit]
      refine ⟨receipt, List.mem_append_right _ (List.mem_singleton_self _), hrequest.symm,
        hstatus, ?_⟩
      rw [ha.eventsAbout_new hnew]
      exact hawaiting
    · exact h.waiting_recorded hnew haudit (hother c q hne hc)
  · intro c c' q q' hc hc' hq
    by_cases hne : c = confirmationId <;> by_cases hne' : c' = confirmationId
    · rw [hne, hne']
    · subst hne
      rw [hself q hc] at hq
      exact absurd hq.symm (hfresh c' q' (hother c' q' hne' hc'))
    · subst hne'
      rw [hself q' hc'] at hq
      exact absurd hq (hfresh c q (hother c q hne hc))
    · exact h.apart c c' q q' (hother c q hne hc) (hother c' q' hne' hc') hq

/-- The refusal of a confirmation ends the trail of the execution that waited for it. -/
theorem Documented.refused {receipt : ExecutionReceipt} (h : Documented d receipt)
    {pending : PendingConfirmation} {record : AuditRecord}
    (hid : receipt.executionId = pending.requestExecutionId)
    (hstatus : receipt.status = .notExecuted)
    (hawaiting : Awaiting receipt.executionId pending.proposal.action.capabilityId
      (eventsAbout d.database.audit receipt.executionId))
    (hevent : record.event = refusalEvent pending)
    (haudit : d'.database.audit = d.database.audit.append [record])
    (hhistory : d'.history = d.history) : Documented d' receipt := by
  refine ⟨?_, h.interval⟩
  have hcount := h.trail.invocations_eq
  obtain ⟨opening, hopening, hevents⟩ := hawaiting
  have hnone : invocations receipt.executionId d.history = 0 := by
    rw [hcount, hevents]
    cases hopening
    rfl
  have hsubject : ∀ r ∈ [record], r.event.subject = receipt.executionId.asStr := by
    intro r hr
    obtain rfl := List.mem_singleton.mp hr
    rw [hevent, hid]
    rfl
  rw [haudit, eventsAbout_append _ _ _ hsubject, hevents, hhistory, hnone, hstatus]
  have htrail := Trail.refused hopening pending.proposal.context.agent
  rw [List.map_singleton, hevent, refusalEvent, ← hid, List.append_assoc]
  exact htrail

/-- The refusal of a confirmation leaves the tables accounted. -/
theorem Accounted.refused (h : Accounted d) (hw : Awaited d) {confirmationId : String}
    {pending : PendingConfirmation} {record : AuditRecord}
    (hmemory : d'.database.memory = d.database.memory)
    (hwaiting : d.pendingConfirmations confirmationId = some pending)
    (hevent : record.event = refusalEvent pending)
    (haudit : d'.database.audit = d.database.audit.append [record])
    (hhistory : d'.history = d.history) : Accounted d' := by
  obtain ⟨receipt, hreceipt, hid, hstatus, hawaiting⟩ := hw.waiting _ _ hwaiting
  have hsubject : record.event.subject = receipt.executionId.asStr := by
    rw [hevent, hid]
    rfl
  refine h.noted (hmemory ▸ refl_of Storage.MemoryChain.Remembers _) haudit
    (.inr ⟨receipt, hreceipt, hsubject⟩) (fun other hother => ?_) hhistory
  by_cases hsame : other.executionId = receipt.executionId
  · obtain rfl := h.distinct.eq_of_mem hother hreceipt hsame
    exact (h.documented other hother).refused hid hstatus hawaiting hevent haudit hhistory
  · refine (h.documented other hother).same ?_ (by rw [hhistory])
    rw [haudit, eventsAbout_noted]
    intro heq
    exact hsame (TypedId.ext (heq.symm.trans hsubject))

/-- What waited for another execution goes on waiting. -/
theorem Awaited.refused (h : Awaited d) {confirmationId : String} {pending : PendingConfirmation}
    {record : AuditRecord} (hwaiting : d.pendingConfirmations confirmationId = some pending)
    (hevent : record.event = refusalEvent pending)
    (haudit : d'.database.audit = d.database.audit.append [record])
    (hpending : d'.pendingConfirmations =
      Function.update d.pendingConfirmations confirmationId none) : Awaited d' := by
  have hother : ∀ c q, d'.pendingConfirmations c = some q →
      c ≠ confirmationId ∧ d.pendingConfirmations c = some q := by
    intro c q hc
    rw [hpending, Function.update_apply] at hc
    split at hc
    · cases hc
    · rename_i hne
      exact ⟨hne, hc⟩
  constructor
  · intro c q hc
    obtain ⟨hne, hc⟩ := hother c q hc
    obtain ⟨old, hold, hid, hstatus, hawaiting⟩ := h.waiting c q hc
    rw [haudit]
    refine ⟨old, hold, hid, hstatus, ?_⟩
    rw [eventsAbout_noted]
    · exact hawaiting
    · intro heq
      rw [hevent, hid] at heq
      exact hne (h.apart c confirmationId q pending hc hwaiting (TypedId.ext heq.symm))
  · intro c c' q q' hc hc'
    exact h.apart c c' q q' (hother c q hc).2 (hother c' q' hc').2

/-- Every step of the ledger keeps the audit tables accounted, or loses an execution. -/
theorem accounted_step (hstep : LedgerStep d d')
    (h : ¬ Lost d.history → Accounted d ∧ Awaited d) :
    ¬ Lost d'.history → Accounted d' ∧ Awaited d' := by
  intro hlost
  -- What is not lost now was not lost before.
  have hgrown : ∀ effects, d'.history = d.history ++ effects → ¬ Lost d.history := by
    intro effects hhistory hold
    rw [hhistory] at hlost
    refine hlost (hold.imp ?_ ?_) <;> exact List.mem_append_left _
  cases hstep with
  | quiet effects hmemory haudit hpending hhistory hidle =>
      obtain ⟨ha, hw⟩ := h (hgrown effects hhistory)
      refine ⟨ha.same hmemory haudit fun x => ?_, hw.fewer haudit hpending⟩
      rw [hhistory, invocations_append, invocations_of_idle hidle, Nat.add_zero]
  | noted record hmemory haudit hforeign hpending hhistory =>
      obtain ⟨ha, hw⟩ := h (hgrown [] (by rw [hhistory, List.append_nil]))
      have hrecord := hforeign ha.items
      exact ⟨ha.foreign hmemory haudit hrecord hhistory,
        hw.noted haudit (fun _ hreceipt => ha.subject_ne hreceipt hrecord) hpending⟩
  | recorded receipt records invoked effects hmemory hrecords haudit hpending hhistory hinvokes =>
      obtain ⟨ha, hw⟩ := h (hgrown effects hhistory)
      exact ⟨ha.recorded hmemory hrecords haudit hhistory hinvokes.count hinvokes.others,
        hw.recorded hrecords haudit hpending⟩
  | awaiting receipt records confirmationId pending hmemory hrecords hawaiting hstatus hrequest
      hproposal haudit hpending hhistory =>
      obtain ⟨ha, hw⟩ := h (hgrown _ hhistory)
      exact ⟨ha.recorded hmemory hrecords haudit hhistory rfl fun _ _ => rfl,
        hw.issued ha hrecords haudit hawaiting hstatus hrequest hpending⟩
  | refused record confirmationId pending hmemory hwaiting hevent haudit hpending hhistory =>
      obtain ⟨ha, hw⟩ := h (hgrown [] (by rw [hhistory, List.append_nil]))
      exact ⟨ha.refused hw hmemory hwaiting hevent haudit hhistory,
        hw.refused hwaiting hevent haudit hpending⟩
  | lost effects hmemory hpending hhistory hunissued hlost' =>
      rw [hhistory] at hlost
      exact absurd (hlost'.imp (List.mem_append_right _) (List.mem_append_right _)) hlost

end

/-! ## Runs -/

/-- An execution that the tables or the history mention. -/
def Occurs (d : ServiceData) (x : ExecutionId) : Prop :=
  (∃ receipt ∈ d.database.audit.executions, receipt.executionId = x) ∨
    invocations x d.history ≠ 0 ∨
    (∃ stamp, x = .generate .execution stamp) ∧
      ∃ row ∈ d.database.audit.events, row.subjectId = some x.asStr

theorem Accounted.receipt_of_occurs {d : ServiceData} (h : Accounted d) {x : ExecutionId}
    (hx : Occurs d x) : ∃ receipt ∈ d.database.audit.executions, receipt.executionId = x := by
  rcases hx with hx | hx | ⟨⟨stamp, rfl⟩, row, hrow, hsubject⟩
  · exact hx
  · exact h.invoked x hx
  · rw [h.mirrored] at hrow
    obtain ⟨record, hrecord, rfl⟩ := List.mem_map.mp hrow
    rw [EventRow.ofRecord, Option.some.injEq] at hsubject
    rcases h.owned record hrecord with hforeign | ⟨receipt, hreceipt, heq⟩
    · exact absurd hsubject (hforeign stamp)
    · exact ⟨receipt, hreceipt, TypedId.ext (heq.symm.trans hsubject)⟩

theorem accounted_after (W : World) (registry : CapabilityRegistry) (policy : PolicyEngine)
    (inputs : List Input) (hwrites : ¬ Lost (after W registry policy inputs).data.history) :
    Accounted (after W registry policy inputs).data := by
  refine (invariant_after (I := fun d => ¬ Lost d.history → Accounted d ∧ Awaited d)
    (fun d d' hstep => accounted_step hstep) ?_ inputs hwrites).1
  intro _
  refine ⟨⟨rfl, ?_, ?_, List.nodup_nil, ?_, ?_, ?_⟩, ⟨?_, ?_⟩⟩ <;>
    simp [blank, Database.empty, AuditTables.empty, Storage.Memory.MemoryTables.empty, invocations]

/-- In every run in which no record of an execution is refused, every execution has one row in the
executions table, with a status that its events bear out and an end that is not before its start;
its events, in the order of their insertion, are those of one lifecycle, in the audit records as
well as in the events table; and an executor was invoked for it once if it was started and never
otherwise. -/
theorem audit_trail (W : World) (registry : CapabilityRegistry) (policy : PolicyEngine)
    (inputs : List Input) (hwrites : ¬ Lost (after W registry policy inputs).data.history)
    (x : ExecutionId) (hx : Occurs (after W registry policy inputs).data x) :
    let d := (after W registry policy inputs).data
    ∃ receipt events,
      d.database.audit.executions.filter (fun other => other.executionId == x) = [receipt] ∧
      Trail x events receipt.status (invocations x d.history) ∧
      (recordsOf d.database.audit x).map AuditRecord.event = events ∧
      (eventsOf d.database.audit x).map EventRow.eventKind = events.map AuditEvent.kind ∧
      receipt.startedAtMs ≤ receipt.finishedAtMs ∧
      invocations x d.history = (events.map AuditEvent.kind).count "execution_started" := by
  intro d
  have h : Accounted d := accounted_after W registry policy inputs hwrites
  obtain ⟨receipt, hreceipt, rfl⟩ := h.receipt_of_occurs hx
  obtain ⟨htrail, hinterval⟩ := h.documented receipt hreceipt
  refine ⟨receipt, _, ?_, htrail, rfl, kinds_eventsOf h.mirrored _, hinterval,
    htrail.invocations_eq⟩
  exact h.distinct.filter_eq_singleton hreceipt

/-- The launch of an application on an empty database. -/
def launchRun : List Input :=
  [.request ⟨"request:1", .executeAction ⟨openAppDescriptor.id, .openApp telegram⟩⟩]

theorem audit_trail_launch :
    ∃ receipt events,
      (after (.steady (.listed [])) .launching .new launchRun).data.database.audit.executions.filter
        (fun other => other.executionId == .generate .execution ⟨0, 0, 2⟩) = [receipt] ∧
      Trail (.generate .execution ⟨0, 0, 2⟩) events receipt.status 1 := by
  obtain ⟨receipt, events, hreceipt, htrail, -⟩ :=
    audit_trail (.steady (.listed [])) .launching .new launchRun (by decide +kernel)
      (.generate .execution ⟨0, 0, 2⟩) (.inr (.inl (by decide +kernel)))
  have hone : invocations (.generate .execution ⟨0, 0, 2⟩)
      (after (.steady (.listed [])) .launching .new launchRun).data.history = 1 := by
    decide +kernel
  rw [hone] at htrail
  exact ⟨receipt, events, hreceipt, htrail⟩

end Halquen.Service.AuditTrail
