import Halquen.Service.AgentFrame
import Halquen.Service.Durability
import Halquen.Storage.SessionLifecycle

/-!
# Runs of agents, from their start to their end

Every way out of the run of an agent goes through the end of its session: a step that fails ends the
session before the request (`Phases`), and a run whose steps all succeed ends it as completed. The
run therefore stores one session, which has ended when the response is there, with one event for its
start and one for its end.
-/

set_option autoImplicit false

namespace Halquen.Service.AgentRuns

open Halquen.Domain.Ids Halquen.Domain.Capability Halquen.Domain.Security Halquen.Domain.Agent
open Halquen.Policy.Engine Halquen.Policy.Authorization Halquen.Capabilities.Executor
open Halquen.Audit.Receipt Halquen.Protocol.Messages Halquen.Ai.Agent
open Halquen.Library.Action Halquen.Library.Action.Act Halquen.Library.Run Halquen.Library.Sql
open Halquen.Service.State Halquen.Service.Proposals Halquen.Service.Handler
open Halquen.Service.Agents Halquen.Service.AgentFrame Halquen.Service.Durability
open Halquen.Service.Walk
open Halquen.Storage.Audit Halquen.Storage.Sqlite
open Halquen.Storage.Grants (StorageError)
open Halquen.Storage.Sessions (SessionTables runningAgent finishedAgent)
open Halquen.Storage.SessionLifecycle

/-! ## Refusals -/

/-- The effect is the refusal of a write. -/
def isRefusal : Effect → Bool
  | .refused _ => true
  | .claimed .. | .invoked .. | .issued _ => false

/-- No write was refused between the two states. -/
def Succeeds (s s' : ServiceState) : Prop :=
  ∃ effects, s'.data.history = s.data.history ++ effects ∧ ∀ e ∈ effects, isRefusal e = false

/-- Where nothing is refused nothing is refused in either part. -/
theorem Succeeds.split {s s₁ s' : ServiceState} (h : Succeeds s s')
    (hfirst : s.data.history <+: s₁.data.history) (hlast : s₁.data.history <+: s'.data.history) :
    Succeeds s s₁ ∧ Succeeds s₁ s' := by
  obtain ⟨effects, hhistory, haccepted⟩ := h
  obtain ⟨first, hfirst⟩ := hfirst
  obtain ⟨last, hlast⟩ := hlast
  rw [← hlast, ← hfirst, List.append_assoc] at hhistory
  obtain rfl := List.append_cancel_left hhistory
  constructor
  · exact ⟨first, hfirst.symm, fun e he => haccepted e (List.mem_append_left _ he)⟩
  · exact ⟨last, hlast.symm, fun e he => haccepted e (List.mem_append_right _ he)⟩

/-- A refusal on record is a refusal. -/
theorem not_succeeds_of_refused {s s' : ServiceState} {effects : List Effect} {m : DbMethod}
    (hhistory : s'.data.history = s.data.history ++ effects) (hmem : .refused m ∈ effects) :
    ¬ Succeeds s s' := by
  rintro ⟨effects', hhistory', haccepted⟩
  rw [hhistory] at hhistory'
  obtain rfl := List.append_cancel_left hhistory'
  cases haccepted _ hmem

theorem refused_last {s s' : ServiceState} {m : DbMethod}
    (h : s'.data.history = s.data.history ++ [.refused m]) :
    s.data.history <+: s'.data.history ∧ ¬ Succeeds s s' :=
  ⟨⟨_, h.symm⟩, not_succeeds_of_refused h (List.mem_singleton_self _)⟩

/-! ## Beginning and end of a session -/

variable {W : World} {α : Type}

/-- The session is stored, and so is its start. -/
structure Opened (session : AgentSession) (identity : AgentExecutionIdentity)
    (s s' : ServiceState) : Prop where
  status : session.status = .running
  unended : session.endedAtMs = none
  fresh : ∀ other ∈ s.data.database.sessions.agentSessions, other.id ≠ session.id
  sessions : s'.data.database.sessions.agentSessions =
    s.data.database.sessions.agentSessions ++ [session]
  events : agentEvents s'.data.database.audit =
    agentEvents s.data.database.audit ++ [.agentSessionStarted session.id identity]
  history : s'.data.history = s.data.history

/-- The session has ended, and so have the grants that were bound to it. -/
structure Closed (id : AgentSessionId) (status : AgentSessionStatus) (endedAtMs : Int)
    (s s' : ServiceState) : Prop where
  ended : status ≠ .running
  sessions : s'.data.database.sessions =
    agentFinished id status endedAtMs s.data.database.sessions
  events : agentEvents s'.data.database.audit =
    agentEvents s.data.database.audit ++ [.agentSessionFinished id status]
  history : s'.data.history = s.data.history

/-- A record of an event about an agent session is appended, or its refusal is in the history. -/
theorem appendAgentEvent_cases {record : AuditRecord} (h : (sessionOf record.event).isSome = true)
    (s : ServiceState) :
    Post (query W .appendAudit (onAudit (appendAudit record))) s fun r s' =>
      s'.data.database.sessions = s.data.database.sessions ∧
        (r = .ok () ∧ s'.data.history = s.data.history ∧
            agentEvents s'.data.database.audit =
              agentEvents s.data.database.audit ++ [record.event] ∨
          (∃ e, r = .error e) ∧ s'.data.history = s.data.history ++ [.refused .appendAudit] ∧
            agentEvents s'.data.database.audit = agentEvents s.data.database.audit) := by
  rw [post_query]
  constructor
  · intro _
    exact ⟨rfl, .inr ⟨⟨_, rfl⟩, rfl, rfl⟩⟩
  · intro _
    rw [post_onAudit]
    refine (appendAudit_spec s.data.database.audit record).mono ?_
    rintro r t (⟨rfl, -, rfl⟩ | ⟨rfl, -, rfl⟩)
    · refine ⟨rfl, .inl ⟨rfl, List.append_nil _, ?_⟩⟩
      change agentEvents (s.data.database.audit.append [record]) = _
      rw [agentEvents_append]
      simp [h]
    · exact ⟨rfl, .inr ⟨⟨_, rfl⟩, rfl, rfl⟩⟩

/-- The end of a session is stored and noted, or a refusal is on record. -/
theorem finishAgentSession_cases (session : AgentSession) (status : AgentSessionStatus)
    (s : ServiceState) :
    Post (Agents.finishAgentSession W session status) s fun r s' =>
      s.data.history <+: s'.data.history ∧
        ((∃ endedAtMs, session.startedAtMs ≤ endedAtMs ∧
            r = .ok { session with status := status, endedAtMs := some endedAtMs } ∧
            Closed session.id status endedAtMs s s') ∨
          (∃ e, r = .error e) ∧ ¬ Succeeds s s') := by
  rw [Agents.finishAgentSession, post_bind, post_now, next_ok, post_bind, post_query]
  generalize hended : max (W.clock s.consulted) session.startedAtMs = endedAtMs
  constructor
  · intro _
    rw [next_error]
    exact ⟨(refused_last rfl).1, .inr ⟨⟨_, rfl⟩, (refused_last rfl).2⟩⟩
  · intro _
    rw [post_onSessions]
    -- The session is closed in the table, then the end is recorded.
    refine (Storage.SessionLifecycle.finishAgentSession_cases W.serde _ _ _ _).mono ?_
    rintro r t (⟨e, rfl, rfl⟩ | ⟨⟨updated, rfl⟩, heffect⟩)
    · rw [Except.mapError, next_error]
      exact ⟨(refused_last rfl).1, .inr ⟨⟨_, rfl⟩, (refused_last rfl).2⟩⟩
    cases heffect with
    | finishAgent _ _ _ hstatus =>
        rw [Except.mapError, next_ok, post_bind, post_generate, next_ok, post_bind]
        refine (appendAgentEvent_cases rfl _).mono ?_
        rintro r s' ⟨hsessions, ⟨rfl, hhistory, hevents⟩ | ⟨⟨e, rfl⟩, hhistory, -⟩⟩
        · rw [next_ok, post_pure]
          have hsame : s'.data.history = s.data.history := hhistory.trans (List.append_nil _)
          refine ⟨by rw [hsame], .inl ⟨endedAtMs, ?_, rfl, hstatus, hsessions, hevents, hsame⟩⟩
          rw [← hended]
          exact le_max_right _ _
        · rw [next_error]
          have hgrown : s'.data.history = s.data.history ++ [.refused .appendAudit] := by
            rw [hhistory]
            exact congrArg (· ++ _) (List.append_nil _)
          exact ⟨(refused_last hgrown).1, .inr ⟨⟨e, rfl⟩, (refused_last hgrown).2⟩⟩

/-- The start of a session is stored and noted, or a refusal is on record. -/
theorem beginAgentSession_cases (session : AgentSession) (identity : AgentExecutionIdentity)
    (s : ServiceState) :
    Post (Agents.beginAgentSession W session identity) s fun r s' =>
      s.data.history <+: s'.data.history ∧
        (r = .ok () ∧ Opened session identity s s' ∨ (∃ e, r = .error e) ∧ ¬ Succeeds s s') := by
  rw [Agents.beginAgentSession, post_bind, post_query]
  constructor
  · intro _
    rw [next_error]
    exact ⟨(refused_last rfl).1, .inr ⟨⟨_, rfl⟩, (refused_last rfl).2⟩⟩
  · intro _
    rw [post_onSessions]
    -- The session is opened in the table, then the start is recorded.
    refine (Storage.SessionLifecycle.beginAgentSession_cases W.serde _ session).mono ?_
    rintro r t (⟨e, rfl, rfl⟩ | ⟨⟨⟨⟩, rfl⟩, heffect⟩)
    · rw [Except.mapError, next_error]
      exact ⟨(refused_last rfl).1, .inr ⟨⟨_, rfl⟩, (refused_last rfl).2⟩⟩
    cases heffect with
    | beginAgent _ hstatus hunended hfresh =>
        rw [Except.mapError, next_ok, post_bind, post_generate, next_ok, post_bind, post_attempt]
        refine (appendAgentEvent_cases rfl _).mono ?_
        rintro r s₁ ⟨hsessions, ⟨rfl, hhistory, hevents⟩ | ⟨⟨e, rfl⟩, hhistory, -⟩⟩
        · rw [next_ok, post_pure]
          have hsame : s₁.data.history = s.data.history := hhistory.trans (List.append_nil _)
          refine ⟨by rw [hsame], .inl ⟨rfl, hstatus, hunended, hfresh, ?_, hevents, hsame⟩⟩
          rw [hsessions]
          rfl
        · -- The start is not on record: the session ends at once.
          have hgrown : s₁.data.history = s.data.history ++ [.refused .appendAudit] := by
            rw [hhistory]
            exact congrArg (· ++ _) (List.append_nil _)
          rw [next_ok, post_bind, post_attempt]
          refine (finishAgentSession_cases session .failed s₁).mono ?_
          rintro r s' ⟨⟨effects, hrest⟩, -⟩
          rw [next_ok, post_throw]
          have hall : s'.data.history =
              s.data.history ++ (.refused .appendAudit :: effects) := by
            rw [← hrest, hgrown, List.append_assoc]
            rfl
          exact ⟨⟨_, hall.symm⟩, .inr ⟨⟨_, rfl⟩, not_succeeds_of_refused hall List.mem_cons_self⟩⟩

/-! ## Steps of a run -/

/-- A step that succeeds leaves the agent sessions alone, and one that fails ends the session. -/
def Phases (W : World) (session : AgentSession) (m : Operation α) : Prop :=
  ∀ s, Post m s fun r s' => match r with
    | .ok _ => Unattended s s'
    | .error _ => ∃ s₁ status, Unattended s s₁ ∧
        s' = (Agents.finishAgentSession W session status s₁).2

section

variable {session : AgentSession}

theorem phases_pure (a : α) : Phases W session (pure a : Operation α) :=
  fun s => refl_of Unattended s

/-- A sequence of phases is one phase, unless the first has ended the session. -/
theorem Phases.bind {β : Type} {m : Operation α} {f : α → Operation β} (hm : Phases W session m)
    (hf : ∀ a, Phases W session (f a)) : Phases W session (m >>= f) := by
  intro s
  refine Post.bind (hm s) ?_ fun _ _ h => h
  intro a s₁ h₁
  refine Post.mono (hf a s₁) ?_
  rintro (e | b) s' h'
  · obtain ⟨s₂, status, h₂, hfinished⟩ := h'
    exact ⟨s₂, status, trans_of Unattended h₁ h₂, hfinished⟩
  · exact trans_of Unattended h₁ h'

theorem phases_gets (f : ServiceState → α) : Phases W session (gets f : Operation α) :=
  fun s => refl_of Unattended s

theorem phases_consult (f : Nat → α) : Phases W session (consult f) :=
  keeps_consult (basics_unattended (W := W)) f

theorem phases_attempt {m : Operation α} (h : Keeps Unattended m) :
    Phases W session (attempt m : Operation (Except Failure α)) := h

/-- A run that is given up has ended its session. -/
theorem phases_abort (status : AgentSessionStatus) (error : Failure) :
    Phases W session (abort W session status error : Operation α) := by
  intro s
  rw [abort, post_bind]
  generalize hfinished : Agents.finishAgentSession W session status s = outcome
  have hstate : outcome.2 = (Agents.finishAgentSession W session status s).2 := by rw [hfinished]
  rw [Post, hfinished]
  obtain ⟨r, s'⟩ := outcome
  cases r with
  | ok ended => exact ⟨s, status, refl_of Unattended s, hstate⟩
  | error e => exact ⟨s, status, refl_of Unattended s, hstate⟩

theorem phases_orAbort {ε : Type} (status : ε → AgentSessionStatus) (error : ε → Failure)
    (r : Except ε α) : Phases W session (orAbort W session status error r) := by
  cases r with
  | ok a => exact phases_pure a
  | error e => exact phases_abort (status e) (error e)

theorem Phases.ite {cond : Prop} [Decidable cond] {m m' : Operation α}
    (hm : cond → Phases W session m) (hm' : ¬ cond → Phases W session m') :
    Phases W session (if cond then m else m') := by
  by_cases h : cond
  · rw [if_pos h]
    exact hm h
  · rw [if_neg h]
    exact hm' h

theorem phases_classifyProposal (proposal : ActionProposal) :
    Phases W session (classifyProposal W session proposal) := by
  unfold classifyProposal
  cases proposal.action.arguments with
  | none => exact phases_pure _
  | openApp app =>
      have hlooked : Keeps Unattended (applicationClassification W app) :=
        keeps_unattended_of_quiet (keeps_quiet_applicationClassification app)
      refine (phases_attempt hlooked).bind fun looked => ?_
      refine (phases_orAbort _ _ looked).bind fun classification => ?_
      exact Phases.ite (fun _ => phases_pure _) fun _ => phases_abort _ _

theorem phases_handleProposal (index : Nat) (proposal : ActionProposal) :
    Phases W session (handleProposal W session index proposal) := by
  refine Phases.ite (fun _ => phases_abort _ _) fun _ => ?_
  refine (phases_classifyProposal proposal).bind fun ready => ?_
  refine (phases_attempt ?_).bind fun response => phases_pure _
  exact keeps_processProposal (pipeline_unattended none) ready none false

/-- Proposals do not attend to the session, by induction on the list. -/
theorem phases_handleProposals (index : Nat) (proposals : List ActionProposal) :
    Phases W session (handleProposals W session index proposals) := by
  induction proposals generalizing index with
  | nil => exact phases_pure _
  | cons proposal proposals ih =>
      exact (phases_handleProposal index proposal).bind fun _ =>
        (ih (index + 1)).bind fun _ => phases_pure _

/-- Nor does the process of the agent. -/
theorem phases_invokeAgent (configuration : AgentConfiguration)
    (identity : AgentExecutionIdentity) (input : String) :
    Phases W session (invokeAgent W configuration identity session input) := by
  refine (phases_gets _).bind fun _ => (phases_consult _).bind fun started => ?_
  refine (phases_orAbort _ _ started).bind fun _ => ?_
  exact (phases_consult _).bind fun printed => phases_orAbort _ _ _

/-- The computation ends with the end of the session. -/
def Ends (W : World) (session : AgentSession) (m : Operation α) : Prop :=
  ∀ s, Post m s fun _ s' => ∃ s₁ status, Unattended s s₁ ∧
    s' = (Agents.finishAgentSession W session status s₁).2

/-- What follows a phase ends the session if the phase has not. -/
theorem Phases.ends {β : Type} {m : Operation α} {f : α → Operation β} (hm : Phases W session m)
    (hf : ∀ a, Ends W session (f a)) : Ends W session (m >>= f) := by
  intro s
  refine Post.bind (hm s) ?_ fun _ _ h => h
  intro a s₁ h₁
  refine Post.mono (hf a s₁) ?_
  rintro r s' ⟨s₂, status, h₂, hfinished⟩
  exact ⟨s₂, status, trans_of Unattended h₁ h₂, hfinished⟩

/-- The last phase ends the session. -/
theorem ends_finishAgentSession (status : AgentSessionStatus) (f : AgentSession → α) :
    Ends W session (do return f (← Agents.finishAgentSession W session status)) := by
  intro s
  rw [post_bind]
  generalize hfinished : Agents.finishAgentSession W session status s = outcome
  have hstate : outcome.2 = (Agents.finishAgentSession W session status s).2 := by rw [hfinished]
  rw [Post, hfinished]
  obtain ⟨r, s'⟩ := outcome
  cases r with
  | ok ended => exact ⟨s, status, refl_of Unattended s, hstate⟩
  | error e => exact ⟨s, status, refl_of Unattended s, hstate⟩

end

/-! ## Whole runs -/

/-- The outcome of a run: it stopped before the session, at the beginning of the session, or with
the end of the session. -/
inductive Ran (W : World) (s : ServiceState) : Except Failure ProtocolResponse → ServiceState →
    Prop where
  | idle (e : Failure) (s' : ServiceState) (h : Unattended s s') : Ran W s (.error e) s'
  | unbegun (session : AgentSession) (identity : AgentExecutionIdentity) (s₁ s' : ServiceState)
      (e : Failure) (h : Unattended s s₁)
      (hbegin : Agents.beginAgentSession W session identity s₁ = (.error e, s')) :
      Ran W s (.error e) s'
  | ended (r : Except Failure ProtocolResponse) (session : AgentSession)
      (identity : AgentExecutionIdentity) (s₁ s₂ s₃ : ServiceState) (status : AgentSessionStatus)
      (h : Unattended s s₁)
      (hbegin : Agents.beginAgentSession W session identity s₁ = (.ok (), s₂))
      (hrun : Unattended s₂ s₃) :
      Ran W s r (Agents.finishAgentSession W session status s₃).2

/-- A run is a start, phases that leave the session alone, and one end. -/
theorem runAgent_ran (request : AgentRunRequest) (s : ServiceState) :
    Post (runAgent W request) s (Ran W s) := by
  rw [runAgent, post_bind, post_require]
  constructor
  · intro _
    rw [next_ok]
    have hconfigured : Keeps Quiet (configuredAgent W request.agentId) :=
      (keeps_quiet_read rfl _).bind fun _ => keeps_orThrow _ _
    refine Post.bind ((keeps_unattended_of_quiet hconfigured).post s) ?_ fun e s' h => .idle e s' h
    intro configuration s₀ h₀
    rw [post_bind, post_now, next_ok, post_bind, post_generate, next_ok, post_bind, post_generate,
      next_ok, post_bind, post_gets, next_ok, post_bind]
    generalize hs₁ : s₀.next.next.next = s₁
    have h₁ : Unattended s s₁ := by
      rw [← hs₁]
      exact trans_of Unattended h₀ (unattended_of_quiet _ _ (quiet_advance s₀ 3))
    generalize AgentExecutionIdentity.mk _ _ _ = identity
    generalize startingSession _ _ _ = session
    generalize hbegin : Agents.beginAgentSession W session identity s₁ = outcome
    rw [Post, hbegin]
    obtain ⟨_ | ⟨⟨⟩⟩, s₂⟩ := outcome
    · exact .unbegun session identity s₁ _ _ h₁ hbegin
    · rw [next_ok]
      -- Whatever fails from here on, the session that was begun is finished.
      have hends : Ends W session (do
          let invocation ← invokeAgent W configuration identity session request.input
          let results ← handleProposals W session 0 invocation.proposals
          let completion ← consult fun n => W.completeAgent n (results.map Prod.snd)
          let stderrBytes ← orAbort W session agentErrorStatus agentError completion
          let finished ← Agents.finishAgentSession W session .completed
          return .agentRun ⟨finished, invocation.message, results.map Prod.fst,
            min stderrBytes (2 ^ 32 - 1)⟩ : Operation ProtocolResponse) := by
        refine (phases_invokeAgent configuration identity request.input).ends fun invocation => ?_
        refine (phases_handleProposals 0 _).ends fun results => ?_
        refine (phases_consult _).ends fun completion => ?_
        exact (phases_orAbort _ _ completion).ends fun bytes => ends_finishAgentSession _ _
      refine (hends s₂).mono ?_
      rintro r s' ⟨s₃, status, h₃, rfl⟩
      exact .ended r session identity s₁ s₂ s₃ status h₁ hbegin h₃
  · intro _
    exact .idle _ s (refl_of Unattended s)

/-! ## Events and stored sessions -/

/-- Identifiers of the agent sessions. -/
def agentIds (t : SessionTables) : List AgentSessionId := t.agentSessions.map AgentSession.id

/-- Every event about an agent session names a stored one. -/
def Accounted (d : Database) : Prop :=
  ∀ event ∈ agentEvents d.audit, ∃ id ∈ agentIds d.sessions, sessionOf event = some id

/-- The agent sessions stay, and a new event names one of them. -/
structure Accounts (s s' : ServiceState) : Prop where
  sessions : ∀ id ∈ agentIds s.data.database.sessions, id ∈ agentIds s'.data.database.sessions
  events : ∀ event ∈ agentEvents s'.data.database.audit,
    event ∈ agentEvents s.data.database.audit ∨
      ∃ id ∈ agentIds s'.data.database.sessions, sessionOf event = some id

instance : IsPreorder ServiceState Accounts where
  refl _ := ⟨fun _ h => h, fun _ h => .inl h⟩
  trans s s₁ s' h h' := by
    refine ⟨fun id hid => h'.sessions id (h.sessions id hid), fun event hevent => ?_⟩
    rcases h'.events event hevent with hold | hnew
    · rcases h.events event hold with hold | ⟨id, hid, hsession⟩
      · exact .inl hold
      · exact .inr ⟨id, h'.sessions id hid, hsession⟩
    · exact .inr hnew

/-- The events stay those of the sessions. -/
theorem Accounted.accounts {s s' : ServiceState} (h : Accounted s.data.database)
    (haccounts : Accounts s s') : Accounted s'.data.database := by
  intro event hevent
  rcases haccounts.events event hevent with hold | hnew
  · obtain ⟨id, hid, hsession⟩ := h event hold
    exact ⟨id, haccounts.sessions id hid, hsession⟩
  · exact hnew

/-- What leaves sessions and events alone keeps the account. -/
theorem accounts_of_same {s s' : ServiceState}
    (hids : agentIds s'.data.database.sessions = agentIds s.data.database.sessions)
    (hevents : agentEvents s'.data.database.audit = agentEvents s.data.database.audit) :
    Accounts s s' := by
  constructor
  · rw [hids]
    exact fun _ h => h
  · rw [hevents]
    exact fun _ h => .inl h

/-- So does what attends to no session. -/
theorem accounts_of_unattended (s s' : ServiceState) (h : Unattended s s') : Accounts s s' :=
  accounts_of_same (congrArg (List.map AgentSession.id) h.sessions) h.events

/-- A statement on the sessions that keeps their identifiers. -/
theorem keeps_accounts_onSessions {method : DbMethod} {m : Act SessionTables StorageError α}
    (h : Keeps (fun t t' => agentIds t' = agentIds t) m) :
    Keeps Accounts (query W method (onSessions m)) := by
  intro s
  change Post (query W method (onSessions m)) s fun _ s' => Accounts s s'
  rw [post_query]
  constructor
  · intro _
    exact accounts_of_same rfl rfl
  · intro _
    rw [post_onSessions]
    exact (h.post _).mono fun _ t ht => accounts_of_same ht rfl

theorem agentIds_agentFinished (id : AgentSessionId) (status : AgentSessionStatus)
    (endedAtMs : Int) (t : SessionTables) :
    agentIds (agentFinished id status endedAtMs t) = agentIds t := by
  apply map_updateRows
  intro session
  rfl

theorem keeps_ids_finishAgentSession (W : World) (id : AgentSessionId)
    (status : AgentSessionStatus) (endedAtMs : Int) :
    Keeps (fun t t' => agentIds t' = agentIds t)
      (Storage.Sessions.finishAgentSession id status endedAtMs) := by
  intro t
  change Post _ t fun _ t' => agentIds t' = agentIds t
  refine (Storage.SessionLifecycle.finishAgentSession_cases W.serde t id status endedAtMs).mono ?_
  intro r t' h
  apply h.keeps (P := fun t' => agentIds t' = agentIds t) rfl
  intro heffect
  cases heffect
  exact agentIds_agentFinished id status endedAtMs t

theorem keeps_ids_beginDaemonSession (W : World) (session : DaemonSession) :
    Keeps (fun t t' => agentIds t' = agentIds t)
      (Storage.Sessions.beginDaemonSession session) := by
  intro t
  change Post _ t fun _ t' => agentIds t' = agentIds t
  refine (beginDaemonSession_cases W.serde t session).mono ?_
  intro r t' h
  apply h.keeps (P := fun t' => agentIds t' = agentIds t) rfl
  intro heffect
  cases heffect
  apply map_updateRows
  intro running
  rfl

/-- What may happen after a session has been stored. -/
def Attends (session : AgentSession) (s s' : ServiceState) : Prop :=
  session.id ∈ agentIds s.data.database.sessions → Accounts s s'

instance {session : AgentSession} : IsPreorder ServiceState (Attends session) where
  refl s _ := refl_of Accounts s
  trans _ _ _ h h' hstored :=
    trans_of Accounts (h hstored) (h' ((h hstored).sessions _ hstored))

theorem keeps_attends_appendAudit {session : AgentSession} {record : AuditRecord}
    (h : sessionOf record.event = some session.id) :
    Keeps (Attends session) (query W .appendAudit (onAudit (appendAudit record))) := by
  intro s
  change Post _ s fun _ s' => Attends session s s'
  have hsome : (sessionOf record.event).isSome = true := by rw [h]; rfl
  refine (appendAgentEvent_cases hsome s).mono ?_
  rintro r s' ⟨hsessions, ⟨-, -, hevents⟩ | ⟨-, -, hevents⟩⟩ hstored
  · constructor
    · rw [hsessions]
      exact fun _ h => h
    · rw [hevents, hsessions]
      intro event hevent
      rcases List.mem_append.mp hevent with hold | hnew
      · exact .inl hold
      · rw [List.mem_singleton.mp hnew]
        exact .inr ⟨session.id, hstored, h⟩
  · exact accounts_of_same (by rw [hsessions]) hevents

/-- The end of a session is noted for a session that is stored. -/
theorem keeps_attends_finishAgentSession (session : AgentSession) (status : AgentSessionStatus) :
    Keeps (Attends session) (Agents.finishAgentSession W session status) := by
  have hquiet : ∀ {β : Type} (f : Nat → β), Keeps (Attends session) (consult f) := fun f =>
    (keeps_consult (basics_unattended (W := W)) f).mono
      fun s s' h _ => accounts_of_unattended s s' h
  refine (hquiet _).bind fun nowMs => Keeps.bind ?_ fun _ => (hquiet _).bind fun id => ?_
  · exact (keeps_accounts_onSessions (keeps_ids_finishAgentSession W _ _ _)).mono
      fun _ _ h _ => h
  · exact (keeps_attends_appendAudit rfl).bind fun _ => keeps_pure _

/-- The start of a session is noted after it is stored. -/
theorem accounts_beginAgentSession (session : AgentSession) (identity : AgentExecutionIdentity)
    (s : ServiceState) :
    Post (Agents.beginAgentSession W session identity) s fun r s' =>
      Accounts s s' ∧ (r = .ok () → session.id ∈ agentIds s'.data.database.sessions) := by
  rw [Agents.beginAgentSession, post_bind, post_query]
  constructor
  · intro _
    exact ⟨accounts_of_same rfl rfl, by simp⟩
  · intro _
    rw [post_onSessions]
    refine (Storage.SessionLifecycle.beginAgentSession_cases W.serde _ session).mono ?_
    rintro r t (⟨e, rfl, rfl⟩ | ⟨⟨⟨⟩, rfl⟩, heffect⟩)
    · refine ⟨accounts_of_same rfl rfl, fun h => ?_⟩
      cases h
    cases heffect with
    | beginAgent _ hstatus hunended hfresh =>
        rw [Except.mapError, next_ok]
        generalize hs₁ : ServiceState.called s _ _ _ = s₁
        -- The new session is in the table before anything is recorded of it.
        have hsessions : agentIds s₁.data.database.sessions =
            agentIds s.data.database.sessions ++ [session.id] := by
          rw [← hs₁]
          exact List.map_append
        have hevents : agentEvents s₁.data.database.audit =
            agentEvents s.data.database.audit := by rw [← hs₁]; rfl
        have hfirst : Accounts s s₁ := by
          constructor
          · rw [hsessions]
            exact fun id hid => List.mem_append_left _ hid
          · rw [hevents]
            exact fun _ h => .inl h
        have hstored : session.id ∈ agentIds s₁.data.database.sessions := by
          rw [hsessions]
          exact List.mem_append_right _ (List.mem_singleton_self _)
        -- What follows keeps the accounts of every agent.
        refine (Keeps.post (R := Attends session) ?_ s₁).mono fun r s' h => ⟨?_, fun _ => ?_⟩
        · refine Keeps.bind ?_ fun id => (keeps_attends_appendAudit rfl).attempt.bind
            fun recorded => ?_
          · exact (keeps_generate basics_unattended _).mono
              fun s s' h _ => accounts_of_unattended s s' h
          cases recorded with
          | ok _ => exact keeps_pure _
          | error _ =>
              exact (keeps_attends_finishAgentSession session .failed).attempt.bind fun _ =>
                keeps_throw _
        · exact trans_of Accounts hfirst (h hstored)
        · exact (h hstored).sessions _ hstored

theorem accounts_of_ran {s s' : ServiceState} {r : Except Failure ProtocolResponse}
    (h : Ran W s r s') : Accounts s s' := by
  cases h with
  | idle e _ h => exact accounts_of_unattended s s' h
  | unbegun session identity s₁ _ e h hbegin =>
      have hbegun := accounts_beginAgentSession (W := W) session identity s₁
      rw [Post, hbegin] at hbegun
      exact trans_of Accounts (accounts_of_unattended s s₁ h) hbegun.1
  | ended _ session identity s₁ s₂ s₃ status h hbegin hrun =>
      have hbegun := accounts_beginAgentSession (W := W) session identity s₁
      rw [Post, hbegin] at hbegun
      have hfirst := trans_of Accounts (accounts_of_unattended s s₁ h) hbegun.1
      have hmiddle := accounts_of_unattended s₂ s₃ hrun
      have hstored := hmiddle.sessions _ (hbegun.2 rfl)
      have hlast := keeps_attends_finishAgentSession (W := W) session status s₃ hstored
      exact trans_of Accounts hfirst (trans_of Accounts hmiddle hlast)

/-- Every input keeps the account. -/
theorem accounts_step (s : ServiceState) (input : Input) : Accounts s (step W s input) := by
  have hquiet : ∀ {β : Type} (f : Nat → β), Keeps Accounts (consult f) := fun f =>
    (keeps_consult (basics_unattended (W := W)) f).mono accounts_of_unattended
  cases input with
  | request envelope =>
      by_cases h : ¬ RunsAgent envelope.request
      · exact accounts_of_unattended _ _ (unattended_handle envelope h s)
      · obtain ⟨request, hrequest⟩ := not_not.mp h
        have hran : Post (handle W envelope) s (Ran W s) := by
          rw [handle, hrequest]
          exact runAgent_ran request s
        exact accounts_of_ran hran
  | restart regular registry policy =>
      have hstart : Keeps Accounts (fromParts W registry policy) := by
        refine (hquiet _).bind fun id => (hquiet _).bind fun startedAtMs => ?_
        refine Keeps.bind (Keeps.attempt ?_) fun _ =>
          keeps_modify fun _ => accounts_of_same rfl rfl
        exact keeps_accounts_onSessions (keeps_ids_beginDaemonSession W _)
      have hend : Keeps Accounts (shutDown W) := by
        refine (keeps_gets _).bind fun id => (hquiet _).bind fun nowMs => ?_
        refine Keeps.bind (Keeps.attempt ?_) fun _ => keeps_pure _
        exact keeps_accounts_onSessions fun _ => rfl
      cases regular with
      | true => exact (hend.bind fun _ => hstart) s
      | false => exact hstart s

/-- After every run of the service, an event about an agent session names a stored one. -/
theorem accounted_after (registry : CapabilityRegistry) (policy : PolicyEngine)
    (inputs : List Input) : Accounted (after W registry policy inputs).data.database := by
  apply run_invariant (I := fun s : ServiceState => Accounted s.data.database)
  · intro s input hs
    exact hs.accounts (accounts_step s input)
  · have hblank : Accounted (blank W registry policy).data.database := by
      intro event hevent
      cases hevent
    exact hblank.accounts (accounts_step (W := W) (blank W registry policy)
      (.restart false registry policy))

/-! ## The session after the run -/

/-- The event is the start of the session. -/
def starts (id : AgentSessionId) : AuditEvent → Bool
  | .agentSessionStarted sessionId _ => sessionId == id
  | _ => false

end Halquen.Service.AgentRuns
