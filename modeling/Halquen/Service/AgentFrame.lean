import Halquen.Service.Walk

/-!
# What leaves the agent sessions alone

The audit trail says of an agent session when it started and when it finished. Only the run of an
agent stores such an event or changes the row of a session: every other request leaves both as they
are (`unattended_handle`), and so do the proposals that the agent makes.
-/

set_option autoImplicit false

namespace Halquen.Service.AgentFrame

open Halquen.Domain.Ids Halquen.Domain.Capability Halquen.Domain.Security Halquen.Domain.Agent
open Halquen.Domain.Interaction Halquen.Policy.Engine Halquen.Capabilities.Executor
open Halquen.Audit.Receipt Halquen.Memory.Semantic Halquen.Protocol.Messages
open Halquen.Library.Action Halquen.Library.Action.Act
open Halquen.Service.State Halquen.Service.Handler Halquen.Service.Walk
open Halquen.Storage.Audit Halquen.Storage.Sqlite
open Halquen.Storage.Grants (StorageError GrantRow)
open Halquen.Storage.Memory (revisionRecord persistMemoryRevision persistMemoryRevision_error
  persistMemoryRevision_spec)

/-! ## Events about agent sessions -/

/-- The events about agent sessions, in the order of the audit trail. -/
def agentEvents (t : AuditTables) : List AuditEvent :=
  (t.auditRecords.map AuditRecord.event).filter fun event => (sessionOf event).isSome

/-- Records add their own events about agent sessions. -/
theorem agentEvents_append (t : AuditTables) (records : List AuditRecord) :
    agentEvents (t.append records) = agentEvents t ++
      (records.map AuditRecord.event).filter fun event => (sessionOf event).isSome := by
  simp [agentEvents, AuditTables.append]

/-- Plain records add none. -/
theorem agentEvents_append_of_plain (t : AuditTables) {records : List AuditRecord}
    (h : Plain (records.map AuditRecord.event)) :
    agentEvents (t.append records) = agentEvents t := by
  rw [agentEvents_append, List.filter_eq_nil_iff.mpr, List.append_nil]
  intro event hevent
  rw [h event hevent]
  exact Bool.false_ne_true

/-! ## Storage methods -/

variable {W : World} {α : Type}

/-- A storage method that neither changes an agent session nor stores an event about one. -/
structure Aloof (d d' : Database) : Prop where
  sessions : d'.sessions.agentSessions = d.sessions.agentSessions
  events : agentEvents d'.audit = agentEvents d.audit

instance : IsPreorder Database Aloof where
  refl _ := ⟨rfl, rfl⟩
  trans _ _ _ h h' := ⟨h'.sessions.trans h.sessions, h'.events.trans h.events⟩

/-- What happens elsewhere leaves agent sessions and their events alone. -/
theorem aloof_of_elsewhere (d d' : Database) (h : Elsewhere d d') : Aloof d d' :=
  ⟨by rw [h.sessions], by rw [h.audit]⟩

theorem keeps_aloof_onGrants (f : List GrantRow → Except StorageError α × List GrantRow) :
    Keeps Aloof (onGrants f) := fun _ => ⟨rfl, rfl⟩

theorem keeps_aloof_onMemory (m : Act Storage.Memory.MemoryTables StorageError α) :
    Keeps Aloof (onMemory m) := fun _ => ⟨rfl, rfl⟩

/-- A record of an event that is not about an agent session. -/
theorem keeps_aloof_appendAudit {record : AuditRecord} (h : sessionOf record.event = none) :
    Keeps Aloof (onAudit (appendAudit record)) := by
  intro d
  change Post (onAudit (appendAudit record)) d fun _ d' => Aloof d d'
  rw [post_onAudit]
  refine Post.mono (appendAudit_spec d.audit record) ?_
  rintro r t (⟨-, -, rfl⟩ | ⟨-, -, rfl⟩)
  · exact ⟨rfl, agentEvents_append_of_plain _ (by simpa [Plain] using h)⟩
  · exact ⟨rfl, rfl⟩

/-- So does the record of an execution. -/
theorem keeps_aloof_recordExecution (receipt : ExecutionReceipt) {records : List AuditRecord}
    (h : Plain (records.map AuditRecord.event)) :
    Keeps Aloof (onAudit (recordExecution receipt records)) := by
  intro d
  change Post (onAudit (recordExecution receipt records)) d fun _ d' => Aloof d d'
  rw [post_onAudit]
  refine Post.mono (recordExecution_spec d.audit receipt records) ?_
  rintro r t (⟨-, -, -, rfl⟩ | ⟨-, -, rfl⟩)
  · exact ⟨rfl, agentEvents_append_of_plain d.audit h⟩
  · exact ⟨rfl, rfl⟩

/-- So does a change of the memory. -/
theorem keeps_aloof_persistMemoryRevision (fails : Storage.Memory.Statement → Bool)
    (auditId : AuditId) (item : MemoryItem) (revision : MemoryRevision)
    (evidence : List Evidence) :
    Keeps Aloof (onMemoryStore
      (persistMemoryRevision fails auditId item revision evidence)) := by
  intro d
  change Post (onMemoryStore _) d fun _ d' => Aloof d d'
  rw [post_onMemoryStore]
  have hdone : Post (persistMemoryRevision fails auditId item revision evidence)
      ⟨d.memory, d.audit⟩ fun r store =>
        (∀ e, r = .error e → store = ⟨d.memory, d.audit⟩) ∧
          ∀ u, r = .ok u → store.audit = d.audit.append [revisionRecord auditId item revision] :=
    ⟨fun e he => persistMemoryRevision_error (Prod.ext he rfl),
      fun u hu => (persistMemoryRevision_spec auditId item revision evidence _ u hu).2⟩
  refine Post.mono hdone ?_
  rintro (e | u) store ⟨hundone, hdone⟩
  · rw [hundone e rfl]
    exact ⟨rfl, rfl⟩
  · refine ⟨rfl, ?_⟩
    rw [hdone u rfl]
    exact agentEvents_append_of_plain d.audit (by simp [Plain, revisionRecord, sessionOf])

/-! ## Requests -/

/-- Neither the agent sessions nor the events about them have changed; the history may have
grown. -/
structure Unattended (s s' : ServiceState) : Prop where
  sessions : s'.data.database.sessions.agentSessions = s.data.database.sessions.agentSessions
  events : agentEvents s'.data.database.audit = agentEvents s.data.database.audit
  history : s.data.history <+: s'.data.history

instance : IsPreorder ServiceState Unattended where
  refl _ := ⟨rfl, rfl, List.prefix_rfl⟩
  trans _ _ _ h h' :=
    ⟨h'.sessions.trans h.sessions, h'.events.trans h.events, h.history.trans h'.history⟩

/-- What is quiet attends to no agent session. -/
theorem unattended_of_quiet (s s' : ServiceState) (h : Quiet s s') : Unattended s s' := by
  refine ⟨?_, ?_, ?_⟩
  all_goals rw [h.data]

theorem keeps_unattended_of_quiet {m : Operation α} (h : Keeps Quiet m) : Keeps Unattended m :=
  h.mono unattended_of_quiet

theorem keeps_unattended_call {method : DbMethod} {action : Act Database StorageError α}
    (h : Keeps Aloof action) : Keeps Unattended (call W method action) :=
  keeps_call_of (fun _ _ _ _ hd _ => ⟨hd.sessions, hd.events, List.prefix_append _ _⟩) h

theorem keeps_unattended_query {method : DbMethod} {action : Act Database StorageError α}
    (h : Keeps Aloof action) : Keeps Unattended (query W method action) :=
  (keeps_unattended_call h).mapError _

/-- Neither the pipeline of the proposals nor the confirmations attend to a session. -/
theorem pipeline_unattended (asked : Option PermissionId) : Pipeline W asked Unattended where
  unsaved _ _ _ hdatabase hhistory := ⟨by rw [hdatabase], by rw [hdatabase], hhistory⟩
  elsewhere h := keeps_unattended_call (h.mono aloof_of_elsewhere)
  responded _ _ := ⟨rfl, rfl, List.prefix_rfl⟩
  saved s _ _ := trans_of Unattended (unattended_of_quiet _ _ (quiet_advance s 1))
    ((keeps_unattended_query (keeps_aloof_onGrants _)).post s.next)
  revoked _ _ := keeps_unattended_query (keeps_aloof_onGrants _)
  claimed _ _ _ := keeps_unattended_query (keeps_aloof_onGrants _)
  appended _ h := keeps_unattended_query (keeps_aloof_appendAudit h)
  recorded receipt _ h := keeps_unattended_query (keeps_aloof_recordExecution receipt h)

theorem basics_unattended : Basics W Unattended := basics_of_pipeline (pipeline_unattended none)

/-- Nor does writing the memory. -/
theorem writing_unattended : Writing W Unattended where
  stated _ _ _ _ := keeps_unattended_query (keeps_aloof_onMemory _)
  persisted _ _ _ _ :=
    (keeps_generate basics_unattended _).bind fun _ => (keeps_gets _).bind fun _ =>
      keeps_unattended_query (keeps_aloof_persistMemoryRevision _ _ _ _ _)

/-- Only the run of an agent attends to an agent session. -/
theorem unattended_handle (envelope : RequestEnvelope) (h : ¬ RunsAgent envelope.request) :
    Keeps Unattended (handle W envelope) := by
  have hattendance : RunsAgent envelope.request → Attendance W (fun _ => True) Unattended :=
    fun hruns => absurd hruns h
  exact keeps_handle envelope (requests_of_pipeline (pipeline_unattended _))
    (fun _ => writing_unattended) hattendance

end Halquen.Service.AgentFrame
