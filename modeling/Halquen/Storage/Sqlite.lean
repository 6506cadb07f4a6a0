import Halquen.Storage.Agents
import Halquen.Storage.Interaction
import Halquen.Storage.Memory
import Halquen.Storage.Sessions

/-!
# The database

All tables that the daemon's requests read and write, with the statements on the security profile
and on the agent configurations. A storage method works on the part of the database that it
concerns and leaves the other parts as they are.
-/

set_option autoImplicit false

namespace Halquen.Storage.Sqlite

open Halquen.Domain.Ids Halquen.Domain.Security Halquen.Domain.Agent Halquen.Domain.Interaction
open Halquen.Library.Action Halquen.Library.Action.Act Halquen.Library.Sql
open Halquen.Storage.Agents Halquen.Storage.Audit Halquen.Storage.Grants Halquen.Storage.Interaction
open Halquen.Storage.Memory Halquen.Storage.Sessions
open Halquen.Storage.Labels

/-- The contents of the database, table by table. -/
structure Database where
  profile : SecurityProfile
  profileUpdatedAtMs : Int
  labels : List ResourceLabel
  agents : List AgentRow
  sessions : SessionTables
  memory : MemoryTables
  audit : AuditTables
  interaction : InteractionTables
  deriving DecidableEq

/-- The database after the migrations. -/
def Database.empty : Database where
  profile := .balanced
  profileUpdatedAtMs := 0
  labels := []
  agents := []
  sessions := ⟨[], [], []⟩
  memory := .empty
  audit := .empty
  interaction := .empty

/-! ## Parts of the database -/

section

variable {α : Type}

/-- An operation on the sessions of agents, as one on the database. -/
def onSessions : Act SessionTables StorageError α → Act Database StorageError α :=
  within Database.sessions fun d sessions => { d with sessions := sessions }

/-- An operation on the memory tables, as one on the database. -/
def onMemory : Act MemoryTables StorageError α → Act Database StorageError α :=
  within Database.memory fun d memory => { d with memory := memory }

/-- An operation on the audit log, as one on the database. -/
def onAudit : Act AuditTables StorageError α → Act Database StorageError α :=
  within Database.audit fun d audit => { d with audit := audit }

/-- An operation on conversations, usage and feedback, as one on the database. -/
def onInteraction : Act InteractionTables StorageError α → Act Database StorageError α :=
  within Database.interaction fun d interaction => { d with interaction := interaction }

/-- Memory and audit tables together. -/
def onMemoryStore : Act MemoryStore StorageError α → Act Database StorageError α :=
  within (fun d => ⟨d.memory, d.audit⟩) fun d store =>
    { d with memory := store.memory, audit := store.audit }

/-- Statement on the grants that keeps their rows where it fails. -/
def onGrants (f : List GrantRow → Except StorageError α × List GrantRow) :
    Act Database StorageError α := fun d =>
  ((f d.sessions.grants).1,
    { d with sessions := { d.sessions with grants := (f d.sessions.grants).2 } })

/-- Upsert of a grant. -/
def saveGrant (serde : ScopeCodec) (grant : PermissionGrant) : Act Database StorageError Unit :=
  onGrants fun rows =>
    ((upsertPermissionGrant serde rows grant).map fun _ => (),
      (upsertPermissionGrant serde rows grant).toOption.getD rows)

variable {d : Database} {Q : Except StorageError α → Database → Prop}

/-- An operation on one part is judged by the part. -/
@[simp]
theorem post_onSessions (m : Act SessionTables StorageError α) :
    Post (onSessions m) d Q ↔ Post m d.sessions fun r t => Q r { d with sessions := t } := Iff.rfl

@[simp]
theorem post_onMemory (m : Act MemoryTables StorageError α) :
    Post (onMemory m) d Q ↔ Post m d.memory fun r t => Q r { d with memory := t } := Iff.rfl

@[simp]
theorem post_onAudit (m : Act AuditTables StorageError α) :
    Post (onAudit m) d Q ↔ Post m d.audit fun r t => Q r { d with audit := t } := Iff.rfl

@[simp]
theorem post_onInteraction (m : Act InteractionTables StorageError α) :
    Post (onInteraction m) d Q ↔ Post m d.interaction fun r t => Q r { d with interaction := t } :=
  Iff.rfl

@[simp]
theorem post_onMemoryStore (m : Act MemoryStore StorageError α) :
    Post (onMemoryStore m) d Q ↔ Post m ⟨d.memory, d.audit⟩ fun r t =>
      Q r { d with memory := t.memory, audit := t.audit } := Iff.rfl

@[simp]
theorem post_onGrants (f : List GrantRow → Except StorageError α × List GrantRow) :
    Post (onGrants f) d Q ↔ Q (f d.sessions.grants).1
      { d with sessions := { d.sessions with grants := (f d.sessions.grants).2 } } := Iff.rfl

end

/-! ## Profile -/

/-- `update_security_profile`: the profile is a single row. -/
def updateSecurityProfile (profile : SecurityProfile) (nowMs : Int) :
    Act Database StorageError Unit :=
  modify fun d => { d with profile := profile, profileUpdatedAtMs := nowMs }

/-! ## Resource labels -/

/-- `upsert_resource_label`, run in the database. -/
def saveLabel (label : ResourceLabel) : Act Database StorageError Unit := do
  let labels ← gets Database.labels
  let rows ← ofExcept (upsertResourceLabel labels label)
  modify fun d => { d with labels := rows }

/-- `delete_resource_label`, run in the database. -/
def deleteLabel (id : ResourceLabelId) : Act Database StorageError Bool := do
  let labels ← gets Database.labels
  modify fun d => { d with labels := (removeResourceLabel labels id).2 }
  return (removeResourceLabel labels id).1

/-! ## Agent configurations -/

/-- `upsert_agent`, run in the database. -/
def saveAgent (codec : ArgumentsCodec) (agent : AgentConfiguration) :
    Act Database StorageError Unit := do
  let agents ← gets Database.agents
  let rows ← ofExcept (upsertAgent codec agents agent)
  modify fun d => { d with agents := rows }

/-- `delete_agent`, run in the database. -/
def deleteAgent (id : AgentId) : Act Database StorageError Bool := do
  let agents ← gets Database.agents
  modify fun d => { d with agents := (removeAgent agents id).2 }
  return (removeAgent agents id).1

end Halquen.Storage.Sqlite
