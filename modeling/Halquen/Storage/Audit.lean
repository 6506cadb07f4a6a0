import Halquen.Audit.Receipt
import Halquen.Library.Action
import Halquen.Library.Sql
import Halquen.Storage.Grants

/-!
# Tables of the audit trail

The executions, audit records and events of the database. `appendAudit` adds one record with its
event, `recordExecution` an execution with all of its records; both are transactions. Either
statement adds everything it was given, at the end of the tables, or fails and adds nothing
(`appendAudit_spec`, `recordExecution_spec`), and it fails exactly where a constraint of the schema
would be violated.
-/

set_option autoImplicit false

namespace Halquen.Storage.Audit

open Halquen.Domain.Ids Halquen.Audit.Receipt
open Halquen.Library.Action Halquen.Library.Action.Act Halquen.Library.Sql
open Halquen.Storage.Grants (StorageError)

/-- Row of the events table. -/
structure EventRow where
  id : AuditId
  eventKind : String
  subjectId : Option String
  createdAtMs : Int
  deriving DecidableEq

/-- Event row of an audit record. -/
def EventRow.ofRecord (record : AuditRecord) : EventRow where
  id := record.id
  eventKind := record.event.kind
  subjectId := some record.event.subject
  createdAtMs := record.createdAtMs

/-- The tables of the audit log. -/
structure AuditTables where
  executions : List ExecutionReceipt
  auditRecords : List AuditRecord
  events : List EventRow
  deriving DecidableEq

/-- The log of a new database. -/
def AuditTables.empty : AuditTables := ⟨[], [], []⟩

/-! ## Statements -/

/-- A receipt is a row of its own, and satisfies what the table demands. -/
def insertExecution (receipt : ExecutionReceipt) : Act AuditTables StorageError Unit := do
  let rows ← gets AuditTables.executions
  require (decide (0 < receipt.capabilityVersion)
    && decide (receipt.startedAtMs ≤ receipt.finishedAtMs)) .database
  let rows ← orThrow .database (insertRow ExecutionReceipt.executionId receipt rows)
  modify fun t => { t with executions := rows }

/-- A record is a row of its own. -/
def insertAudit (record : AuditRecord) : Act AuditTables StorageError Unit := do
  let rows ← gets AuditTables.auditRecords
  let rows ← orThrow .database (insertRow AuditRecord.id record rows)
  modify fun t => { t with auditRecords := rows }

/-- Every record is mirrored as an event. -/
def insertEventForAudit (record : AuditRecord) : Act AuditTables StorageError Unit := do
  let rows ← gets AuditTables.events
  let rows ← orThrow .database (insertRow EventRow.id (.ofRecord record) rows)
  modify fun t => { t with events := rows }

/-- A record with its event. -/
def insertRecord (record : AuditRecord) : Act AuditTables StorageError Unit := do
  insertAudit record
  insertEventForAudit record

/-- `append_audit`: both rows are written or none. -/
def appendAudit (record : AuditRecord) : Act AuditTables StorageError Unit :=
  transaction (insertRecord record)

/-- `record_execution`: the receipt and its records are written or none. -/
def recordExecution (receipt : ExecutionReceipt) (records : List AuditRecord) :
    Act AuditTables StorageError Unit :=
  transaction do
    insertExecution receipt
    forEach records insertRecord

/-! ## What the statements add -/

/-- The tables with these records at the end. -/
def AuditTables.append (t : AuditTables) (records : List AuditRecord) : AuditTables :=
  { t with
    auditRecords := t.auditRecords ++ records
    events := t.events ++ records.map EventRow.ofRecord }

/-- The tables with this execution and these records at the end. -/
def AuditTables.record (t : AuditTables) (receipt : ExecutionReceipt)
    (records : List AuditRecord) : AuditTables :=
  { t.append records with executions := t.executions ++ [receipt] }

/-- No record or event of the tables has this identifier. -/
def AuditTables.Fresh (t : AuditTables) (id : AuditId) : Prop :=
  (∀ r ∈ t.auditRecords, r.id ≠ id) ∧ ∀ e ∈ t.events, e.id ≠ id

/-- The records can be added one after the other. -/
def AuditTables.Appendable (t : AuditTables) (records : List AuditRecord) : Prop :=
  (records.map AuditRecord.id).Nodup ∧ ∀ r ∈ records, t.Fresh r.id

/-- The execution can be added. -/
structure AuditTables.Admits (t : AuditTables) (receipt : ExecutionReceipt) : Prop where
  version : 0 < receipt.capabilityVersion
  interval : receipt.startedAtMs ≤ receipt.finishedAtMs
  fresh : ∀ e ∈ t.executions, e.executionId ≠ receipt.executionId

section

variable (t : AuditTables)

/-- A receipt is written if the table admits it. -/
theorem insertExecution_spec (receipt : ExecutionReceipt) :
    Post (insertExecution receipt) t fun r t' =>
      (r = .ok () ∧ t.Admits receipt ∧ t' = { t with executions := t.executions ++ [receipt] }) ∨
        (r = .error .database ∧ ¬ t.Admits receipt) := by
  simp only [insertExecution, post_bind, post_gets, next_ok, post_require, Bool.and_eq_true,
    decide_eq_true_eq]
  constructor
  · rintro ⟨hversion, hinterval⟩
    cases h : insertRow ExecutionReceipt.executionId receipt t.executions with
    | none =>
        simp only [post_orThrow_none, next_error, reduceCtorEq, false_and, false_or, true_and]
        intro hadmits
        have hsome := (insertRow_eq_some_iff ExecutionReceipt.executionId receipt _ _).mpr
          ⟨hadmits.fresh, rfl⟩
        rw [h] at hsome
        cases hsome
    | some rows =>
        obtain ⟨hfresh, rfl⟩ := (insertRow_eq_some_iff _ _ _ _).mp h
        exact .inl ⟨rfl, ⟨hversion, hinterval, hfresh⟩, rfl⟩
  · intro hchecks
    refine .inr ⟨rfl, fun hadmits => ?_⟩
    rw [← Bool.not_eq_true] at hchecks
    exact hchecks (by simp [hadmits.version, hadmits.interval])

/-- A record is written with its event if its identifier is new. -/
theorem insertRecord_spec (record : AuditRecord) :
    Post (insertRecord record) t fun r t' =>
      (r = .ok () ∧ t.Fresh record.id ∧ t' = t.append [record]) ∨
        (r = .error .database ∧ ¬ t.Fresh record.id) := by
  simp only [insertRecord, insertAudit, insertEventForAudit, post_bind, post_gets, next_ok]
  cases haudit : insertRow AuditRecord.id record t.auditRecords with
  | none =>
      simp only [post_orThrow_none, next_error, reduceCtorEq, false_and, false_or, true_and]
      intro hfresh
      have hsome := (insertRow_eq_some_iff AuditRecord.id record _ _).mpr ⟨hfresh.1, rfl⟩
      rw [haudit] at hsome
      cases hsome
  | some rows =>
      obtain ⟨hnew, rfl⟩ := (insertRow_eq_some_iff _ _ _ _).mp haudit
      simp only [post_orThrow_some, next_ok, post_modify, post_bind, post_gets]
      cases hevent : insertRow EventRow.id (.ofRecord record) t.events with
      | none =>
          simp only [post_orThrow_none, next_error, reduceCtorEq, false_and, false_or, true_and]
          intro hfresh
          have hsome := (insertRow_eq_some_iff EventRow.id (.ofRecord record) _ _).mpr
            ⟨hfresh.2, rfl⟩
          rw [hevent] at hsome
          cases hsome
      | some events =>
          obtain ⟨hnew', rfl⟩ := (insertRow_eq_some_iff _ _ _ _).mp hevent
          exact .inl ⟨rfl, ⟨hnew, hnew'⟩, rfl⟩

theorem AuditTables.fresh_append (record : AuditRecord) (id : AuditId) :
    (t.append [record]).Fresh id ↔ record.id ≠ id ∧ t.Fresh id := by
  simp only [Fresh, append, List.mem_append, List.mem_singleton, List.map_cons, List.map_nil]
  constructor
  · rintro ⟨hrecords, hevents⟩
    exact ⟨hrecords record (.inr rfl), fun r hr => hrecords r (.inl hr),
      fun e he => hevents e (.inl he)⟩
  · rintro ⟨hne, hrecords, hevents⟩
    constructor
    · rintro r (hr | rfl)
      · exact hrecords r hr
      · exact hne
    · rintro e (he | rfl)
      · exact hevents e he
      · exact hne

/-- Records can be written if each is new when its turn comes. -/
theorem AuditTables.appendable_cons (record : AuditRecord) (records : List AuditRecord) :
    t.Appendable (record :: records) ↔
      t.Fresh record.id ∧ (t.append [record]).Appendable records := by
  simp only [Appendable, List.map_cons, List.nodup_cons, List.mem_map, not_exists, not_and,
    List.mem_cons, fresh_append]
  constructor
  · rintro ⟨⟨hne, hnodup⟩, hfresh⟩
    exact ⟨hfresh record (.inl rfl), hnodup,
      fun r hr => ⟨fun heq => hne r hr heq.symm, hfresh r (.inr hr)⟩⟩
  · rintro ⟨hfirst, hnodup, hrest⟩
    refine ⟨⟨fun r hr heq => (hrest r hr).1 heq.symm, hnodup⟩, ?_⟩
    rintro r (rfl | hr)
    · exact hfirst
    · exact (hrest r hr).2

theorem AuditTables.append_append (records records' : List AuditRecord) :
    (t.append records).append records' = t.append (records ++ records') := by
  simp [append]

/-- Records are added one by one; the first that is refused stops the insertion. -/
theorem insertRecords_spec (records : List AuditRecord) :
    Post (forEach records insertRecord) t fun r t' =>
      (r = .ok () ∧ t.Appendable records ∧ t' = t.append records) ∨
        (r = .error .database ∧ ¬ t.Appendable records) := by
  induction records generalizing t with
  | nil =>
      refine .inl ⟨rfl, ⟨List.nodup_nil, by simp⟩, ?_⟩
      simp [AuditTables.append, forEach, Pure.pure]
  | cons record records ih =>
      refine (insertRecord_spec t record).bind ?_ ?_
      · rintro ⟨⟩ t' h
        rcases h with ⟨-, hfresh, rfl⟩ | ⟨h, -⟩
        · refine (ih _).mono ?_
          rintro r t' (⟨rfl, happend, rfl⟩ | ⟨rfl, hnot⟩)
          · refine .inl ⟨rfl, (t.appendable_cons record records).mpr ⟨hfresh, happend⟩, ?_⟩
            rw [AuditTables.append_append, List.singleton_append]
          · refine .inr ⟨rfl, fun happend => hnot ?_⟩
            exact ((t.appendable_cons record records).mp happend).2
        · cases h
      · rintro e t' h
        rcases h with ⟨h, -⟩ | ⟨h, hnot⟩
        · cases h
        · refine .inr ⟨by cases h; rfl, fun happend => hnot ?_⟩
          exact ((t.appendable_cons record records).mp happend).1

/-- A record is added together with its event, or nothing is. -/
theorem appendAudit_spec (record : AuditRecord) :
    Post (appendAudit record) t fun r t' =>
      (r = .ok () ∧ t.Fresh record.id ∧ t' = t.append [record]) ∨
        (r = .error .database ∧ ¬ t.Fresh record.id ∧ t' = t) := by
  rw [appendAudit, post_transaction]
  refine (insertRecord_spec t record).mono ?_
  rintro r t' (⟨rfl, hfresh, rfl⟩ | ⟨rfl, hnot⟩)
  · exact .inl ⟨rfl, hfresh, rfl⟩
  · exact .inr ⟨rfl, hnot, rfl⟩

/-- An execution is added together with all of its records and events, or nothing is. -/
theorem recordExecution_spec (receipt : ExecutionReceipt) (records : List AuditRecord) :
    Post (recordExecution receipt records) t fun r t' =>
      (r = .ok () ∧ t.Admits receipt ∧ t.Appendable records ∧ t' = t.record receipt records) ∨
        (r = .error .database ∧ ¬ (t.Admits receipt ∧ t.Appendable records) ∧ t' = t) := by
  rw [recordExecution, post_transaction]
  refine (insertExecution_spec t receipt).bind ?_ ?_
  · rintro ⟨⟩ t' h
    rcases h with ⟨-, hadmits, rfl⟩ | ⟨h, -⟩
    · refine (insertRecords_spec _ records).mono ?_
      rintro r t' (⟨rfl, happend, rfl⟩ | ⟨rfl, hnot⟩)
      · exact .inl ⟨rfl, hadmits, happend, rfl⟩
      · exact .inr ⟨rfl, fun h => hnot h.2, rfl⟩
    · cases h
  · rintro e t' h
    rcases h with ⟨h, -⟩ | ⟨h, hnot⟩
    · cases h
    · cases h
      exact .inr ⟨rfl, fun h => hnot h.1, rfl⟩

end

end Halquen.Storage.Audit
