import Halquen.Library.History
import Halquen.Storage.Sessions

/-!
# Lifecycle of sessions

Daemon sessions, agent sessions and grants over a run of the operations that begin and finish
sessions and store grants, in any order and with any identifiers and times. An operation either
fails and changes nothing, or has the effect that `Effect` describes (`perform_cases`). Everything
else follows from the effects: the invariant `Lifecycle` holds in every state reached, a session
that has ended never changes again, and the operations that end sessions leave no live grant that
was bound to them (`session_lifecycle`).
-/

set_option autoImplicit false

namespace Halquen.Storage.SessionLifecycle

open Halquen.Domain.Ids Halquen.Domain.Security Halquen.Domain.Agent
open Halquen.Library.Action Halquen.Library.Action.Act Halquen.Library.History Halquen.Library.Run
open Halquen.Library.Sql
open Halquen.Storage.Grants Halquen.Storage.Sessions

/-! ## Calls -/

/-- The calls that begin and end sessions. -/
inductive SessionCall where
  | beginDaemonSession (session : DaemonSession)
  | finishDaemonSession (id : DaemonSessionId) (endedAtMs : Int)
  | beginAgentSession (session : AgentSession)
  | finishAgentSession (id : AgentSessionId) (status : AgentSessionStatus) (endedAtMs : Int)
  | upsertPermissionGrant (grant : PermissionGrant)

/-- The upsert of a grant, on the three tables. -/
def upsertGrant (serde : ScopeCodec) (grant : PermissionGrant) :
    Act SessionTables StorageError Unit := do
  let rows ← reads fun t => Grants.upsertPermissionGrant serde t.grants grant
  modify fun t => { t with grants := rows }

/-- Outcome of a call. Those that begin a session or store a grant return no flag. -/
def perform (serde : ScopeCodec) : SessionCall → Act SessionTables StorageError (Option Bool)
  | .beginDaemonSession session => do
      beginDaemonSession session
      return none
  | .finishDaemonSession id endedAtMs => do
      return some (← finishDaemonSession id endedAtMs)
  | .beginAgentSession session => do
      beginAgentSession session
      return none
  | .finishAgentSession id status endedAtMs => do
      return some (← finishAgentSession id status endedAtMs)
  | .upsertPermissionGrant grant => do
      upsertGrant serde grant
      return none

/-- The tables of a new database. -/
def emptyTables : SessionTables := ⟨[], [], []⟩

/-- State reached from empty tables by calls that succeed or fail. -/
def reached (serde : ScopeCodec) (calls : List SessionCall) : SessionTables :=
  run (fun t call => (perform serde call t).2) emptyTables calls

/-! ## Effects -/

/-- Tables after the beginning of a daemon session. -/
def begun (session : DaemonSession) (t : SessionTables) : SessionTables where
  agentSessions := updateRows runningAgent
    (fun running => finishedAgent running .crashed session.startedAtMs) t.agentSessions
  daemonSessions := updateRows (fun open_ => isNull open_.endedAtMs)
    (fun open_ => finishedDaemon open_ session.startedAtMs) t.daemonSessions ++ [session]
  grants := revokeSessionGrants boundToProcess session.startedAtMs t.grants

/-- Tables after the end of a daemon session. -/
def daemonFinished (id : DaemonSessionId) (endedAtMs : Int) (t : SessionTables) : SessionTables :=
  { t with
    daemonSessions := updateRows (fun session =>
        (eq (some session.id) (some id)).and (isNull session.endedAtMs))
      (fun session => finishedDaemon session endedAtMs) t.daemonSessions
    grants := revokeSessionGrants (boundToSession "daemon" id.asStr) endedAtMs t.grants }

/-- Tables after the end of an agent session. -/
def agentFinished (id : AgentSessionId) (status : AgentSessionStatus) (endedAtMs : Int)
    (t : SessionTables) : SessionTables :=
  { t with
    agentSessions := updateRows (fun session =>
        (eq (some session.id) (some id)).and (runningAgent session))
      (fun session => finishedAgent session status endedAtMs) t.agentSessions
    grants := revokeSessionGrants (boundToSession "agent" id.asStr) endedAtMs t.grants }

/-- What a call that succeeds does. -/
inductive Effect (serde : ScopeCodec) (t : SessionTables) : SessionCall → SessionTables → Prop where
  | beginDaemon (session : DaemonSession) (hopen : session.endedAtMs = none)
      (hfresh : ∀ other ∈ t.daemonSessions, other.id ≠ session.id) :
      Effect serde t (.beginDaemonSession session) (begun session t)
  | finishDaemon (id : DaemonSessionId) (endedAtMs : Int) :
      Effect serde t (.finishDaemonSession id endedAtMs) (daemonFinished id endedAtMs t)
  | beginAgent (session : AgentSession) (hstatus : session.status = .running)
      (hopen : session.endedAtMs = none)
      (hfresh : ∀ other ∈ t.agentSessions, other.id ≠ session.id) :
      Effect serde t (.beginAgentSession session)
        { t with agentSessions := t.agentSessions ++ [session] }
  | finishAgent (id : AgentSessionId) (status : AgentSessionStatus) (endedAtMs : Int)
      (hstatus : status ≠ .running) :
      Effect serde t (.finishAgentSession id status endedAtMs) (agentFinished id status endedAtMs t)
  | upsertGrant (grant : PermissionGrant) (rows : List GrantRow)
      (hok : Grants.upsertPermissionGrant serde t.grants grant = .ok rows) :
      Effect serde t (.upsertPermissionGrant grant) { t with grants := rows }

section Cases

variable (serde : ScopeCodec) (t : SessionTables)

/-- The start of a daemon is recorded as a whole or not at all. -/
theorem beginDaemonSession_cases (session : DaemonSession) :
    Post (beginDaemonSession session) t
      (Atomic t (Effect serde t (.beginDaemonSession session))) := by
  simp only [beginDaemonSession, post_bind, post_require, next_ok, next_error, post_transaction,
    post_modify, post_gets]
  refine ⟨fun hopen => ?_, fun _ => atomic_error _⟩
  cases hinsert : insertRow DaemonSession.id session (updateRows
      (fun open_ => isNull open_.endedAtMs) (fun open_ => finishedDaemon open_ session.startedAtMs)
      t.daemonSessions) with
  | none => exact atomic_error _
  | some rows =>
      obtain ⟨hfresh, rfl⟩ := (insertRow_eq_some_iff _ _ _ _).mp hinsert
      refine atomic_ok () (.beginDaemon session (by simpa using hopen) ?_)
      -- Closing a session does not change its identifier.
      intro other hother
      by_cases hclosed : other.endedAtMs = none
      · exact hfresh (finishedDaemon other session.startedAtMs)
          ((mem_updateRows _ _ _ _).mpr (.inl ⟨other, hother, by simpa using hclosed, rfl⟩))
      · exact hfresh other ((mem_updateRows _ _ _ _).mpr (.inr ⟨hother, by simpa using hclosed⟩))

/-- So is its end. -/
theorem finishDaemonSession_cases (id : DaemonSessionId) (endedAtMs : Int) :
    Post (finishDaemonSession id endedAtMs) t
      (Atomic t (Effect serde t (.finishDaemonSession id endedAtMs))) :=
  atomic_ok _ (.finishDaemon id endedAtMs)

/-- So is the start of a run. -/
theorem beginAgentSession_cases (session : AgentSession) :
    Post (beginAgentSession session) t
      (Atomic t (Effect serde t (.beginAgentSession session))) := by
  simp only [beginAgentSession, post_bind, post_require, next_ok, next_error, post_gets]
  refine ⟨fun hnew => ⟨fun _ => ?_, fun _ => atomic_error _⟩, fun _ => atomic_error _⟩
  simp only [Bool.and_eq_true, beq_iff_eq, Option.isNone_iff_eq_none] at hnew
  cases hinsert : insertRow AgentSession.id session t.agentSessions with
  | none => exact atomic_error _
  | some rows =>
      obtain ⟨hfresh, rfl⟩ := (insertRow_eq_some_iff _ _ _ _).mp hinsert
      exact atomic_ok () (.beginAgent session hnew.1 hnew.2 hfresh)

/-- So is its end. -/
theorem finishAgentSession_cases (id : AgentSessionId) (status : AgentSessionStatus)
    (endedAtMs : Int) :
    Post (finishAgentSession id status endedAtMs) t
      (Atomic t (Effect serde t (.finishAgentSession id status endedAtMs))) := by
  simp only [finishAgentSession, post_bind, post_require, next_ok, next_error, post_modify,
    post_gets, post_pure]
  refine ⟨fun hstatus => ?_, fun _ => atomic_error _⟩
  exact atomic_ok _ (.finishAgent id status endedAtMs (by simpa using hstatus))

theorem upsertGrant_cases (grant : PermissionGrant) :
    Post (upsertGrant serde grant) t
      (Atomic t (Effect serde t (.upsertPermissionGrant grant))) := by
  rw [upsertGrant, post_bind, post_reads]
  cases hok : Grants.upsertPermissionGrant serde t.grants grant with
  | error e => exact atomic_error e
  | ok rows => exact atomic_ok () (.upsertGrant grant rows hok)

/-- Every call has its whole effect or none. -/
theorem perform_cases (call : SessionCall) :
    Post (perform serde call) t (Atomic t (Effect serde t call)) := by
  cases call with
  | beginDaemonSession session =>
      exact post_atomic_map (beginDaemonSession_cases serde t session) _
  | finishDaemonSession id endedAtMs =>
      exact post_atomic_map (finishDaemonSession_cases serde t id endedAtMs) _
  | beginAgentSession session => exact post_atomic_map (beginAgentSession_cases serde t session) _
  | finishAgentSession id status endedAtMs =>
      exact post_atomic_map (finishAgentSession_cases serde t id status endedAtMs) _
  | upsertPermissionGrant grant => exact post_atomic_map (upsertGrant_cases serde t grant) _

end Cases

/-! ## Invariant -/

/-- An agent session runs as long as it has no end, and does not end before its start. -/
structure AgentConsistent (session : AgentSession) : Prop where
  running_iff : session.status = .running ↔ session.endedAtMs = none
  start_le_end : ∀ endedAtMs ∈ session.endedAtMs, session.startedAtMs ≤ endedAtMs

/-- What holds of the sessions and grants in every state reached. -/
structure Lifecycle (t : SessionTables) : Prop where
  daemon_ids : UniqueKey DaemonSession.id t.daemonSessions
  agent_ids : UniqueKey AgentSession.id t.agentSessions
  one_open : ∀ a ∈ t.daemonSessions, ∀ b ∈ t.daemonSessions,
    a.endedAtMs = none → b.endedAtMs = none → a = b
  daemon_end : ∀ session ∈ t.daemonSessions, ∀ endedAtMs ∈ session.endedAtMs,
    session.startedAtMs ≤ endedAtMs
  agents : ∀ session ∈ t.agentSessions, AgentConsistent session
  bound : ∀ row ∈ t.grants, row.sessionKind.isSome = true → row.lifetime = "session"

section Invariant

variable {serde : ScopeCodec} {t t' : SessionTables}

@[simp]
theorem holds_runningAgent (session : AgentSession) :
    holds (runningAgent session) = true ↔ session.status = .running ∧ session.endedAtMs = none := by
  simp [runningAgent]

/-- A session that is closed has a status and an end that fit. -/
theorem agentConsistent_finishedAgent (session : AgentSession) {status : AgentSessionStatus}
    (h : status ≠ .running) (endedAtMs : Int) :
    AgentConsistent (finishedAgent session status endedAtMs) := by
  refine ⟨iff_of_false h (by simp [finishedAgent]), ?_⟩
  intro ended hended
  cases hended
  exact le_max_left _ _

theorem start_le_end_finishedDaemon (session : DaemonSession) (endedAtMs : Int) :
    ∀ ended ∈ (finishedDaemon session endedAtMs).endedAtMs,
      (finishedDaemon session endedAtMs).startedAtMs ≤ ended := by
  intro ended hended
  cases hended
  exact le_max_left _ _

/-- Ending some of the agent sessions keeps all of them consistent. -/
theorem agents_update {sessions : List AgentSession}
    (h : ∀ session ∈ sessions, AgentConsistent session) (cond : AgentSession → Truth)
    {status : AgentSessionStatus} (hstatus : status ≠ .running) (endedAtMs : Int) :
    ∀ session ∈ updateRows cond (fun session => finishedAgent session status endedAtMs) sessions,
      AgentConsistent session := by
  intro session hsession
  rcases (mem_updateRows _ _ _ _).mp hsession with ⟨old, -, -, rfl⟩ | ⟨hold, -⟩
  · exact agentConsistent_finishedAgent old hstatus endedAtMs
  · exact h session hold

/-- Closing sessions keeps their times in order. -/
theorem daemons_update {sessions : List DaemonSession}
    (h : ∀ session ∈ sessions, ∀ endedAtMs ∈ session.endedAtMs, session.startedAtMs ≤ endedAtMs)
    (cond : DaemonSession → Truth) (nowMs : Int) :
    ∀ session ∈ updateRows cond (fun session => finishedDaemon session nowMs) sessions,
      ∀ endedAtMs ∈ session.endedAtMs, session.startedAtMs ≤ endedAtMs := by
  intro session hsession
  rcases (mem_updateRows _ _ _ _).mp hsession with ⟨old, -, -, rfl⟩ | ⟨hold, -⟩
  · exact start_le_end_finishedDaemon old nowMs
  · exact h session hold

/-- A daemon session that is open after some have been closed was open before. -/
theorem open_of_mem_update {sessions : List DaemonSession} {cond : DaemonSession → Truth}
    {nowMs : Int} {session : DaemonSession}
    (h : session ∈ updateRows cond (fun session => finishedDaemon session nowMs) sessions)
    (hopen : session.endedAtMs = none) :
    session ∈ sessions ∧ ¬ holds (cond session) = true := by
  rcases (mem_updateRows _ _ _ _).mp h with ⟨old, -, -, rfl⟩ | hkept
  · cases hopen
  · exact hkept

/-- Revoking a grant leaves what it is bound to. -/
theorem bound_revoke {rows : List GrantRow}
    (h : ∀ row ∈ rows, row.sessionKind.isSome = true → row.lifetime = "session")
    (cond : GrantRow → Truth) (nowMs : Int) :
    ∀ row ∈ revokeSessionGrants cond nowMs rows,
      row.sessionKind.isSome = true → row.lifetime = "session" := by
  intro row hrow
  rcases (mem_updateRows _ _ _ _).mp hrow with ⟨old, hold, -, rfl⟩ | ⟨hold, -⟩
  · exact h old hold
  · exact h row hold

/-- Only a session grant is bound to a session. -/
theorem bound_ofGrant {grant : PermissionGrant} (h : SessionShaped grant)
    (hkind : (GrantRow.ofGrant serde grant).sessionKind.isSome = true) :
    (GrantRow.ofGrant serde grant).lifetime = "session" := by
  have hsession : grant.session.isSome = true := by simpa [GrantRow.ofGrant] using hkind
  simp [GrantRow.ofGrant, h.mpr hsession, permissionLifetime]

/-- A new database has no sessions. -/
theorem lifecycle_empty : Lifecycle emptyTables where
  daemon_ids := List.nodup_nil
  agent_ids := List.nodup_nil
  one_open := by simp [emptyTables]
  daemon_end := by simp [emptyTables]
  agents := by simp [emptyTables]
  bound := by simp [emptyTables]

/-- The start of a daemon keeps the invariant. -/
theorem Lifecycle.begun (h : Lifecycle t) {session : DaemonSession}
    (hopen : session.endedAtMs = none)
    (hfresh : ∀ other ∈ t.daemonSessions, other.id ≠ session.id) :
    Lifecycle (begun session t) := by
  -- Every session that was open before is closed, so the new one is the only open session.
  have hclosed : ∀ other ∈ updateRows (fun open_ : DaemonSession => isNull open_.endedAtMs)
      (fun open_ => finishedDaemon open_ session.startedAtMs) t.daemonSessions,
      other.endedAtMs ≠ none := by
    intro other hother hnone
    exact (open_of_mem_update hother hnone).2 (by simpa using hnone)
  have hopen_eq : ∀ other ∈ (SessionLifecycle.begun session t).daemonSessions,
      other.endedAtMs = none → other = session := by
    intro other hother hnone
    rcases List.mem_append.mp hother with hold | hnew
    · exact absurd hnone (hclosed other hold)
    · exact List.mem_singleton.mp hnew
  refine ⟨?_, h.agent_ids.update _ fun _ => rfl, ?_, ?_, ?_, bound_revoke h.bound _ _⟩
  -- The new identifier is that of no session before.
  · have hids : UniqueKey DaemonSession.id (updateRows (fun open_ => isNull open_.endedAtMs)
        (fun open_ => finishedDaemon open_ session.startedAtMs) t.daemonSessions) :=
      h.daemon_ids.update _ fun _ => rfl
    apply hids.append
    intro other hother
    rcases (mem_updateRows _ _ _ _).mp hother with ⟨old, hold, -, rfl⟩ | ⟨hold, -⟩
    · exact hfresh old hold
    · exact hfresh other hold
  · intro a ha b hb hanone hbnone
    rw [hopen_eq a ha hanone, hopen_eq b hb hbnone]
  · intro other hother
    rcases List.mem_append.mp hother with hold | hnew
    · exact daemons_update h.daemon_end _ _ other hold
    · rw [List.mem_singleton.mp hnew, hopen]
      nofun
  · exact agents_update h.agents _ (by decide) _

/-- So does its end. -/
theorem Lifecycle.daemonFinished (h : Lifecycle t) (id : DaemonSessionId) (endedAtMs : Int) :
    Lifecycle (daemonFinished id endedAtMs t) := by
  refine ⟨h.daemon_ids.update _ fun _ => rfl, h.agent_ids, ?_, daemons_update h.daemon_end _ _,
    h.agents, bound_revoke h.bound _ _⟩
  intro a ha b hb hanone hbnone
  exact h.one_open a (open_of_mem_update ha hanone).1 b (open_of_mem_update hb hbnone).1 hanone
    hbnone

/-- So does the start of a run. -/
theorem Lifecycle.agentBegun (h : Lifecycle t) {session : AgentSession}
    (hstatus : session.status = .running) (hopen : session.endedAtMs = none)
    (hfresh : ∀ other ∈ t.agentSessions, other.id ≠ session.id) :
    Lifecycle { t with agentSessions := t.agentSessions ++ [session] } := by
  refine ⟨h.daemon_ids, h.agent_ids.append hfresh, h.one_open, h.daemon_end, ?_, h.bound⟩
  intro other hother
  rcases List.mem_append.mp hother with hold | hnew
  · exact h.agents other hold
  · rw [List.mem_singleton.mp hnew]
    exact ⟨iff_of_true hstatus hopen, by simp [hopen]⟩

/-- So does its end. -/
theorem Lifecycle.agentFinished (h : Lifecycle t) (id : AgentSessionId)
    {status : AgentSessionStatus} (hstatus : status ≠ .running) (endedAtMs : Int) :
    Lifecycle (agentFinished id status endedAtMs t) :=
  ⟨h.daemon_ids, h.agent_ids.update _ fun _ => rfl, h.one_open, h.daemon_end,
    agents_update h.agents _ hstatus _, bound_revoke h.bound _ _⟩

/-- So does every effect. -/
theorem Effect.lifecycle {call : SessionCall} (heffect : Effect serde t call t')
    (h : Lifecycle t) : Lifecycle t' := by
  cases heffect with
  | beginDaemon session hopen hfresh => exact h.begun hopen hfresh
  | finishDaemon id endedAtMs => exact h.daemonFinished id endedAtMs
  | beginAgent session hstatus hopen hfresh => exact h.agentBegun hstatus hopen hfresh
  | finishAgent id status endedAtMs hstatus => exact h.agentFinished id hstatus endedAtMs
  | upsertGrant grant rows hok =>
      refine ⟨h.daemon_ids, h.agent_ids, h.one_open, h.daemon_end, h.agents, ?_⟩
      exact forall_upsertPermissionGrant hok h.bound fun _ => bound_ofGrant

/-- So it holds in every reached state. -/
theorem lifecycle_reached (serde : ScopeCodec) (calls : List SessionCall) :
    Lifecycle (reached serde calls) := by
  apply run_invariant (I := Lifecycle) _ lifecycle_empty
  intro t call h
  exact (perform_cases serde t call).keeps h fun heffect => heffect.lifecycle h

end Invariant

/-! ## Sessions that have ended -/

/-- Sessions that have ended stay as they are. -/
structure Settles (t t' : SessionTables) : Prop where
  agents : ∀ session ∈ t.agentSessions, session.status ≠ .running → session ∈ t'.agentSessions
  daemons : ∀ session ∈ t.daemonSessions, session.endedAtMs ≠ none → session ∈ t'.daemonSessions

instance : IsPreorder SessionTables Settles where
  refl _ := ⟨fun _ h _ => h, fun _ h _ => h⟩
  trans _ _ _ hab hbc :=
    ⟨fun s hs hended => hbc.agents s (hab.agents s hs hended) hended,
      fun s hs hended => hbc.daemons s (hab.daemons s hs hended) hended⟩

section Settled

variable {serde : ScopeCodec} {t t' : SessionTables}

/-- A closed run is not changed by an update of those that run. -/
theorem settled_agent {sessions : List AgentSession} {cond : AgentSession → Truth}
    (hcond : ∀ session, holds (cond session) = true → session.status = .running)
    (set : AgentSession → AgentSession) :
    ∀ session ∈ sessions, session.status ≠ .running → session ∈ updateRows cond set sessions := by
  intro session hsession hended
  apply (mem_updateRows _ _ _ _).mpr
  exact .inr ⟨hsession, fun h => hended (hcond session h)⟩

/-- A closed daemon is not changed by an update of those that are open. -/
theorem settled_daemon {sessions : List DaemonSession} {cond : DaemonSession → Truth}
    (hcond : ∀ session, holds (cond session) = true → session.endedAtMs = none)
    (set : DaemonSession → DaemonSession) :
    ∀ session ∈ sessions, session.endedAtMs ≠ none → session ∈ updateRows cond set sessions := by
  intro session hsession hended
  apply (mem_updateRows _ _ _ _).mpr
  exact .inr ⟨hsession, fun h => hended (hcond session h)⟩

/-- What is closed or revoked stays as it is. -/
theorem Effect.settles {call : SessionCall} (heffect : Effect serde t call t') : Settles t t' := by
  cases heffect with
  | beginDaemon session hopen hfresh =>
      refine ⟨settled_agent (fun s h => ((holds_runningAgent s).mp h).1) _, ?_⟩
      intro other hother hended
      apply List.mem_append_left
      exact settled_daemon (fun s h => by simpa using h) _ other hother hended
  | finishDaemon id endedAtMs =>
      refine ⟨fun _ h _ => h, settled_daemon (fun s h => ?_) _⟩
      rw [holds_and, holds_isNull] at h
      exact h.2
  | beginAgent session hstatus hopen hfresh =>
      exact ⟨fun s hs _ => List.mem_append_left _ hs, fun _ h _ => h⟩
  | finishAgent id status endedAtMs hstatus =>
      refine ⟨settled_agent (fun s h => ?_) _, fun _ h _ => h⟩
      rw [holds_and, holds_runningAgent] at h
      exact h.2.1
  | upsertGrant grant rows hok => exact ⟨fun _ h _ => h, fun _ h _ => h⟩

/-- It stays so through any number of calls. -/
theorem settles_reached (serde : ScopeCodec) (calls later : List SessionCall) :
    Settles (reached serde calls) (reached serde (calls ++ later)) := by
  unfold reached
  rw [run_append]
  apply run_related
  intro t call
  exact (perform_cases serde t call).keeps (refl_of Settles t) Effect.settles

end Settled

/-! ## Grants bound to a session -/

/-- After the revocation no session grant is live that is bound as the statement says. -/
theorem revoked_of_session {rows : List GrantRow} {bound : GrantRow → Truth} {nowMs : Int}
    {row : GrantRow} (hrow : row ∈ revokeSessionGrants bound nowMs rows)
    (hlifetime : row.lifetime = "session") (hbound : holds (bound row) = true) :
    row.revokedAtMs ≠ none := by
  intro hlive
  rcases (mem_updateRows _ _ _ _).mp hrow with ⟨old, -, -, rfl⟩ | ⟨-, hnot⟩
  · cases hlive
  · apply hnot
    rw [holds_and, holds_and, holds_isNull, holds_eq]
    exact ⟨hlive, ⟨rfl, congrArg some hlifetime⟩, hbound⟩

/-- The grants bound to what is closed are revoked. -/
theorem revoked_of_bound {rows : List GrantRow}
    (h : ∀ row ∈ rows, row.sessionKind.isSome = true → row.lifetime = "session")
    {bound : GrantRow → Truth}
    (hbound : ∀ row, holds (bound row) = true → row.sessionKind.isSome = true)
    (nowMs : Int) :
    ∀ row ∈ revokeSessionGrants bound nowMs rows, holds (bound row) = true →
      row.revokedAtMs ≠ none := by
  intro row hrow hholds
  exact revoked_of_session hrow (bound_revoke h bound nowMs row hrow (hbound row hholds)) hholds

/-- The grant is bound to the session of this kind and identifier. -/
def BoundTo (kind id : String) (row : GrantRow) : Prop :=
  row.sessionKind = some kind ∧ row.sessionId = some id

theorem holds_boundToSession (kind id : String) (row : GrantRow) :
    holds (boundToSession kind id row) = true ↔ BoundTo kind id row := by
  unfold boundToSession BoundTo
  rw [holds_and, holds_eq, holds_eq]
  constructor
  · rintro ⟨⟨-, hkind⟩, -, hid⟩
    exact ⟨hkind, hid⟩
  · rintro ⟨hkind, hid⟩
    exact ⟨⟨by simp [hkind], hkind⟩, by simp [hid], hid⟩

theorem holds_boundToProcess (row : GrantRow) :
    holds (boundToProcess row) = true ↔
      row.sessionKind = some "agent" ∨ row.sessionKind = some "daemon" := by
  unfold boundToProcess
  rw [holds_or, holds_eq, holds_eq]
  constructor
  · rintro (⟨-, h⟩ | ⟨-, h⟩)
    · exact .inl h
    · exact .inr h
  · rintro (h | h)
    · exact .inl ⟨by simp [h], h⟩
    · exact .inr ⟨by simp [h], h⟩

section Ended

variable {serde : ScopeCodec} {t t' : SessionTables}

/-- The beginning of a daemon session leaves nothing of the sessions before it. -/
theorem begun_clears (h : Lifecycle t) {session : DaemonSession}
    (heffect : Effect serde t (.beginDaemonSession session) t') :
    (∀ agent ∈ t'.agentSessions, agent.status ≠ .running) ∧
      ∀ row ∈ t'.grants, row.sessionKind = some "agent" ∨ row.sessionKind = some "daemon" →
        row.revokedAtMs ≠ none := by
  cases heffect with
  | beginDaemon _ hopen hfresh =>
      refine ⟨?_, ?_⟩
      · intro agent hagent hrunning
        rcases (mem_updateRows _ _ _ _).mp hagent with ⟨old, -, -, rfl⟩ | ⟨hold, hnot⟩
        · cases hrunning
        · have hend := (h.agents agent hold).running_iff.mp hrunning
          exact hnot ((holds_runningAgent agent).mpr ⟨hrunning, hend⟩)
      · intro row hrow hkind
        apply revoked_of_bound h.bound _ _ row hrow ((holds_boundToProcess row).mpr hkind)
        intro other hother
        rcases (holds_boundToProcess other).mp hother with h | h <;> simp [h]

/-- This is so for the grants of a session that ends. -/
theorem revoked_of_finished (h : Lifecycle t) (kind id : String) (nowMs : Int) :
    ∀ row ∈ revokeSessionGrants (boundToSession kind id) nowMs t.grants,
      BoundTo kind id row → row.revokedAtMs ≠ none := by
  intro row hrow hbound
  apply revoked_of_bound h.bound _ nowMs row hrow ((holds_boundToSession kind id row).mpr hbound)
  intro other hother
  simp [((holds_boundToSession kind id other).mp hother).1]

end Ended

/-- The lifecycle of sessions and of the grants bound to them, after any calls. -/
theorem session_lifecycle (serde : ScopeCodec) (calls : List SessionCall) :
    Lifecycle (reached serde calls) ∧
    (∀ later, Settles (reached serde calls) (reached serde (calls ++ later))) ∧
    (∀ call e t', perform serde call (reached serde calls) = (.error e, t') →
      t' = reached serde calls) ∧
    (∀ session t', beginDaemonSession session (reached serde calls) = (.ok (), t') →
      (∀ agent ∈ t'.agentSessions, agent.status ≠ .running) ∧
        ∀ row ∈ t'.grants, row.sessionKind = some "agent" ∨ row.sessionKind = some "daemon" →
          row.revokedAtMs ≠ none) ∧
    (∀ id status endedAtMs updated t',
      finishAgentSession id status endedAtMs (reached serde calls) = (.ok updated, t') →
        ∀ row ∈ t'.grants, BoundTo "agent" id.asStr row → row.revokedAtMs ≠ none) ∧
    (∀ id endedAtMs updated t',
      finishDaemonSession id endedAtMs (reached serde calls) = (.ok updated, t') →
        ∀ row ∈ t'.grants, BoundTo "daemon" id.asStr row → row.revokedAtMs ≠ none) := by
  have h := lifecycle_reached serde calls
  refine ⟨h, settles_reached serde calls, ?_, ?_, ?_, ?_⟩
  · intro call e t' hfail
    -- Each call is described by its cases, an error among them.
    have hcases := perform_cases serde (reached serde calls) call
    rw [Post, hfail] at hcases
    exact hcases.unchanged_of_error
  · intro session t' hbegin
    have hcases := beginDaemonSession_cases serde (reached serde calls) session
    rw [Post, hbegin] at hcases
    exact begun_clears h hcases.effect_of_ok
  · intro id status endedAtMs updated t' hfinish
    have hcases := finishAgentSession_cases serde (reached serde calls) id status endedAtMs
    rw [Post, hfinish] at hcases
    cases hcases.effect_of_ok
    exact revoked_of_finished h "agent" id.asStr endedAtMs
  · intro id endedAtMs updated t' hfinish
    have hcases := finishDaemonSession_cases serde (reached serde calls) id endedAtMs
    rw [Post, hfinish] at hcases
    cases hcases.effect_of_ok
    exact revoked_of_finished h "daemon" id.asStr endedAtMs

end Halquen.Storage.SessionLifecycle
