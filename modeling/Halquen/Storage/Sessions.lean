import Halquen.Domain.Agent
import Halquen.Library.Action
import Halquen.Storage.Grants

/-!
# Daemon and agent sessions

Beginning a daemon session ends whatever a previous daemon left running and revokes the grants that
were bound to its sessions; finishing a session revokes the grants that were bound to it. All of
this touches a grant in one way only: a grant that was not revoked may be revoked
(`keeps_revoked_beginDaemonSession` and its companions).
-/

set_option autoImplicit false

namespace Halquen.Storage.Sessions

open Halquen.Domain.Ids Halquen.Domain.Security Halquen.Domain.Agent
open Halquen.Library.Action Halquen.Library.Action.Act Halquen.Library.Sql
open Halquen.Storage.Grants

/-- Sessions, and the grants that are bound to them. -/
structure SessionTables where
  daemonSessions : List DaemonSession
  agentSessions : List AgentSession
  grants : List GrantRow
  deriving DecidableEq

/-- `UPDATE permission_grants SET revoked_at_ms = ? WHERE revoked_at_ms IS NULL AND
lifetime = 'session' AND ...`. -/
def revokeSessionGrants (bound : GrantRow → Truth) (nowMs : Int) (rows : List GrantRow) :
    List GrantRow :=
  updateRows (fun row =>
      (isNull row.revokedAtMs).and ((eq (some row.lifetime) (some "session")).and (bound row)))
    (fun row => { row with revokedAtMs := some nowMs }) rows

/-- `session_kind IN ('agent', 'daemon')`. -/
def boundToProcess (row : GrantRow) : Truth :=
  (eq row.sessionKind (some "agent")).or (eq row.sessionKind (some "daemon"))

/-- `session_kind = ? AND session_id = ?`. -/
def boundToSession (kind id : String) (row : GrantRow) : Truth :=
  (eq row.sessionKind (some kind)).and (eq row.sessionId (some id))

/-- An agent session that is still running ends with this status. -/
def finishedAgent (session : AgentSession) (status : AgentSessionStatus) (endedAtMs : Int) :
    AgentSession :=
  { session with status := status, endedAtMs := some (max session.startedAtMs endedAtMs) }

/-- A session ends no earlier than it has begun. -/
def finishedDaemon (session : DaemonSession) (endedAtMs : Int) : DaemonSession :=
  { session with endedAtMs := some (max session.startedAtMs endedAtMs) }

/-- `status = 'running' AND ended_at_ms IS NULL`. -/
def runningAgent (session : AgentSession) : Truth :=
  (eq (some session.status) (some .running)).and (isNull session.endedAtMs)

/-- `begin_daemon_session`: what an earlier daemon has left open is closed first. -/
def beginDaemonSession (session : DaemonSession) : Act SessionTables StorageError Unit := do
  require session.endedAtMs.isNone
    (.invalidInteraction "new daemon session is already ended")
  transaction do
    modify fun t => { t with
      agentSessions := updateRows runningAgent
        (fun running => finishedAgent running .crashed session.startedAtMs) t.agentSessions
      daemonSessions := updateRows (fun open_ => isNull open_.endedAtMs)
        (fun open_ => finishedDaemon open_ session.startedAtMs) t.daemonSessions
      grants := revokeSessionGrants boundToProcess session.startedAtMs t.grants }
    let t ← gets fun t => t
    let rows ← orThrow .database (insertRow DaemonSession.id session t.daemonSessions)
    modify fun t => { t with daemonSessions := rows }

/-- `finish_daemon_session`: a session that is open is closed. -/
def finishDaemonSession (id : DaemonSessionId) (endedAtMs : Int) :
    Act SessionTables StorageError Bool := do
  let t ← gets fun t => t
  let cond := fun session : DaemonSession =>
    (eq (some session.id) (some id)).and (isNull session.endedAtMs)
  modify fun t => { t with
    daemonSessions := updateRows cond (fun session => finishedDaemon session endedAtMs)
      t.daemonSessions
    grants := revokeSessionGrants (boundToSession "daemon" id.asStr) endedAtMs t.grants }
  return changes cond t.daemonSessions == 1

/-- `instance_id` is unique as well, and the daemon session has to be stored. -/
def beginAgentSession (session : AgentSession) : Act SessionTables StorageError Unit := do
  require (session.status == .running && session.endedAtMs.isNone)
    (.invalidInteraction "new agent session must be running")
  let t ← gets fun t => t
  require (t.daemonSessions.any (fun daemon => daemon.id == session.daemonSessionId)
    && t.agentSessions.all fun other => other.instanceId != session.instanceId) .database
  let rows ← orThrow .database (insertRow AgentSession.id session t.agentSessions)
  modify fun t => { t with agentSessions := rows }

/-- `finish_agent_session`: a session that runs is closed. -/
def finishAgentSession (id : AgentSessionId) (status : AgentSessionStatus) (endedAtMs : Int) :
    Act SessionTables StorageError Bool := do
  require (status != .running)
    (.invalidInteraction "finished agent session cannot remain running")
  let t ← gets fun t => t
  let cond := fun session : AgentSession =>
    (eq (some session.id) (some id)).and (runningAgent session)
  modify fun t => { t with
    agentSessions := updateRows cond (fun session => finishedAgent session status endedAtMs)
      t.agentSessions
    grants := revokeSessionGrants (boundToSession "agent" id.asStr) endedAtMs t.grants }
  return changes cond t.agentSessions == 1

/-! ## Effect on the grants -/

/-- The grants are the same, except that some that were not revoked are revoked now. -/
def GrantsRevoked (rows rows' : List GrantRow) : Prop :=
  List.Forall₂ (fun row row' => row' = row ∨
    row.revokedAtMs = none ∧ ∃ at_, row' = { row with revokedAtMs := some at_ }) rows rows'

theorem GrantsRevoked.refl (rows : List GrantRow) : GrantsRevoked rows rows :=
  List.forall₂_same.mpr fun _ _ => .inl rfl

/-- Grants are revoked, and nothing else of them changes. -/
theorem grantsRevoked_revokeSessionGrants (bound : GrantRow → Truth) (nowMs : Int)
    (rows : List GrantRow) : GrantsRevoked rows (revokeSessionGrants bound nowMs rows) := by
  unfold GrantsRevoked revokeSessionGrants updateRows
  rw [List.forall₂_map_right_iff, List.forall₂_same]
  intro row _
  split
  · rename_i hcond
    simp only [holds_and, holds_isNull] at hcond
    exact .inr ⟨hcond.1, nowMs, rfl⟩
  · exact .inl rfl

/-- What a session operation does to the grants. -/
def RevokesOnly (t t' : SessionTables) : Prop := GrantsRevoked t.grants t'.grants

/-- The calls on sessions do no more to grants than revoke them. -/
theorem keeps_revoked_beginDaemonSession (session : DaemonSession) :
    Keeps RevokesOnly (beginDaemonSession session) := by
  intro t
  change Post (beginDaemonSession session) t fun _ t' => RevokesOnly t t'
  simp only [beginDaemonSession, post_bind, post_require, next_ok, next_error, post_transaction,
    post_modify, post_gets]
  refine ⟨fun _ => ?_, fun _ => GrantsRevoked.refl _⟩
  cases insertRow DaemonSession.id session (updateRows (fun open_ => isNull open_.endedAtMs)
      (fun open_ => finishedDaemon open_ session.startedAtMs) t.daemonSessions) with
  | none => exact GrantsRevoked.refl _
  | some rows => exact grantsRevoked_revokeSessionGrants _ _ _

theorem keeps_revoked_finishDaemonSession (id : DaemonSessionId) (endedAtMs : Int) :
    Keeps RevokesOnly (finishDaemonSession id endedAtMs) :=
  fun _ => grantsRevoked_revokeSessionGrants _ _ _

theorem keeps_revoked_beginAgentSession (session : AgentSession) :
    Keeps RevokesOnly (beginAgentSession session) := by
  intro t
  change Post (beginAgentSession session) t fun _ t' => RevokesOnly t t'
  simp only [beginAgentSession, post_bind, post_require, next_ok, next_error, post_gets]
  refine ⟨fun _ => ⟨fun _ => ?_, fun _ => GrantsRevoked.refl _⟩, fun _ => GrantsRevoked.refl _⟩
  cases insertRow AgentSession.id session t.agentSessions with
  | none => exact GrantsRevoked.refl _
  | some rows => exact GrantsRevoked.refl _

theorem keeps_revoked_finishAgentSession (id : AgentSessionId) (status : AgentSessionStatus)
    (endedAtMs : Int) : Keeps RevokesOnly (finishAgentSession id status endedAtMs) := by
  intro t
  change Post (finishAgentSession id status endedAtMs) t fun _ t' => RevokesOnly t t'
  simp only [finishAgentSession, post_bind, post_require, next_ok, next_error, post_modify,
    post_gets, post_pure]
  exact ⟨fun _ => grantsRevoked_revokeSessionGrants _ _ _, fun _ => GrantsRevoked.refl _⟩

end Halquen.Storage.Sessions
