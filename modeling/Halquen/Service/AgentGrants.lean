import Halquen.Service.Walk
import Halquen.Storage.GrantUse

/-!
# Side effects of agents

Whatever an agent prints, its proposals carry the identity that the daemon gave it and the resources
that the daemon classified. A side effect of such a proposal is allowed by an exact-scope grant
only, and that grant is claimed before the executor runs: in the history of a run of an agent every
invocation for a side effect stands right after the claim of a grant to this agent. The grant is in
the table as the run has it when the daemon begins with the proposal, it is active at the time that
is read then, and its use is counted in the table (`agent_side_effects_claimed`).
-/

set_option autoImplicit false

namespace Halquen.Service.AgentGrants

open Halquen.Domain.Ids Halquen.Domain.Capability Halquen.Domain.Security Halquen.Domain.Agent
open Halquen.Policy.Engine Halquen.Policy.Authorization Halquen.Policy.Specification
open Halquen.Audit.Receipt Halquen.Protocol.Messages Halquen.Ai.Agent
open Halquen.Library.Action Halquen.Library.Action.Act Halquen.Library.Sql
open Halquen.Service.Context Halquen.Service.State Halquen.Service.Proposals
open Halquen.Service.Agents Halquen.Service.Walk
open Halquen.Storage.Audit Halquen.Storage.Grants Halquen.Storage.Labels Halquen.Storage.Sqlite
open Halquen.Storage.GrantUse (holds_claimable)

/-! ## The run of an agent in parts -/

/-- The run of an agent up to the proposals that its process has printed. -/
def startAgentRun (W : World) (request : AgentRunRequest) :
    Operation (AgentSession × AgentInvocationResult) := do
  require (!isBlank request.input && decide (request.input.utf8ByteSize ≤ 64 * 1024))
    (validation "agent input must be between 1 and 65536 bytes")
  let configuration ← configuredAgent W request.agentId
  let startedAtMs ← now W
  let instanceId ← generate W .agentInstance
  let sessionId ← generate W .agentSession
  let identity : AgentExecutionIdentity := ⟨configuration.id, instanceId, sessionId⟩
  let daemonSessionId ← gets fun s => s.data.daemonSessionId
  let session := startingSession identity daemonSessionId startedAtMs
  beginAgentSession W session identity
  let invocation ← invokeAgent W configuration identity session request.input
  return (session, invocation)

/-- The run of an agent after its proposals. -/
def endAgentRun (W : World) (session : AgentSession) (invocation : AgentInvocationResult)
    (results : List (AgentProposalResult × AgentBrokerProposalResult)) :
    Operation ProtocolResponse := do
  let completion ← consult fun n => W.completeAgent n (results.map Prod.snd)
  let stderrBytes ← orAbort W session agentErrorStatus agentError completion
  let finished ← finishAgentSession W session .completed
  return .agentRun ⟨finished, invocation.message, results.map Prod.fst,
    min stderrBytes (2 ^ 32 - 1)⟩

/-- The run of an agent through its first proposals only, up to the state after them. -/
def runProposals (W : World) (request : AgentRunRequest) (count : Nat) :
    Operation (List (AgentProposalResult × AgentBrokerProposalResult)) := do
  let started ← startAgentRun W request
  handleProposals W started.1 0 (started.2.proposals.take count)

/-- A run is a start, its proposals and an end. -/
theorem runAgent_eq (W : World) (request : AgentRunRequest) :
    runAgent W request = startAgentRun W request >>= fun started =>
      handleProposals W started.1 0 started.2.proposals >>= endAgentRun W started.1 started.2 := by
  simp only [startAgentRun, Act.bind_assoc]
  rfl

/-! ## Grants to an agent -/

/-- Resources of an agent's action, as the daemon classifies them. -/
def daemonResources (labels : List ResourceLabel) : ActionArguments → List ResourceDescriptor
  | .none => []
  | .openApp app => [⟨.application, app.asStr, classify labels .application app.asStr⟩]

/-- Scope of an agent's action. -/
def daemonScope (labels : List ResourceLabel) (action : ActionRequest) : PermissionScope where
  capabilityId := action.capabilityId
  arguments := action.arguments
  resources := daemonResources labels action.arguments
  destination := none

/-- A row with an unrevoked, unexpired and unexhausted Allow grant, to exactly this agent, for all
of its sessions or for exactly this one, with exactly the scope of the action. -/
structure Entitles (W : World) (identity : AgentExecutionIdentity) (labels : List ResourceLabel)
    (action : ActionRequest) (row : GrantRow) (atMs : Int) : Prop where
  effect : row.effect = "allow"
  unrevoked : row.revokedAtMs = none
  unexpired : ∀ expiry ∈ row.expiresAtMs, atMs ≤ expiry
  unexhausted : ∀ limit ∈ row.useLimit, row.useCount < limit
  agent : row.agentId = some identity.agentId.asStr
  session : row.lifetime ≠ "session" ∧ row.sessionKind = none ∧ row.sessionId = none ∨
    row.lifetime = "session" ∧ row.sessionKind = some "agent" ∧
      row.sessionId = some identity.sessionId.asStr
  capability : row.capabilityId = action.capabilityId.asStr
  scope : row.scopeJson = W.serde.toText (daemonScope labels action)

/-- A claim that the daemon makes while it handles a proposal of the agent, between the state in
which it begins with the proposal and the state in which it is done with it: the row is in the
table, the time is the reading with which the handling of the proposal starts, after two identifiers
have been generated, and the use of the row is counted in the table. -/
structure Claims (W : World) (identity : AgentExecutionIdentity) (labels : List ResourceLabel)
    (action : ActionRequest) (row : GrantRow) (atMs : Int) (s s' : ServiceState) : Prop where
  stored : row ∈ s.data.database.sessions.grants
  reading : atMs = W.clock (s.consulted + 2)
  entitles : Entitles W identity labels action row atMs
  counted : s'.data.database.sessions.grants =
    updateRows (claimable row.id atMs) GrantRow.use s.data.database.sessions.grants
  used : row.use ∈ s'.data.database.sessions.grants

/-- Every invocation for a side effect stands right after a claim, which is made from one state of
the run to the next. The states are numbered, and the history of each is the history at the
beginning with the effects before the claim. -/
def Backed (W : World) (identity : AgentExecutionIdentity) (labels : List ResourceLabel)
    (history : List Effect) (states : Nat → ServiceState) (effects : List Effect) : Prop :=
  ∀ before executor authorization reply after,
    effects = before ++ .invoked executor authorization reply :: after →
    authorization.descriptor.sideEffect = true →
    ∃ earlier row atMs n, before = earlier ++ [.claimed row atMs] ∧
      (states n).data.history = history ++ earlier ∧
      Claims W identity labels authorization.action row atMs (states n) (states (n + 1))

/-- One proposal: the claim is the first of its effects, and the invocation the next. -/
def BackedOnce (W : World) (identity : AgentExecutionIdentity) (labels : List ResourceLabel)
    (s s' : ServiceState) (effects : List Effect) : Prop :=
  ∀ before executor authorization reply after,
    effects = before ++ .invoked executor authorization reply :: after →
    authorization.descriptor.sideEffect = true →
    ∃ row atMs, before = [.claimed row atMs] ∧
      Claims W identity labels authorization.action row atMs s s'

/-- What stands in two lists one after the other stands in the first or in the second. -/
theorem append_cases {α : Type} {first last before after : List α} {a : α}
    (h : first ++ last = before ++ a :: after) :
    (∃ rest, first = before ++ a :: rest) ∨
      ∃ rest, before = first ++ rest ∧ last = rest ++ a :: after := by
  rcases List.append_eq_append_iff.mp h with ⟨rest, hbefore, hlast⟩ | ⟨rest, hfirst, hrest⟩
  · exact .inr ⟨rest, hbefore, hlast⟩
  · cases rest with
    | nil =>
        rw [List.append_nil] at hfirst
        rw [List.nil_append] at hrest
        exact .inr ⟨[], by rw [hfirst, List.append_nil], hrest.symm⟩
    | cons b rest =>
        rw [List.cons_append, List.cons.injEq] at hrest
        exact .inl ⟨rest, by rw [hfirst, hrest.1]⟩

section

variable {W : World} {identity : AgentExecutionIdentity} {labels : List ResourceLabel}
  {history : List Effect} {states : Nat → ServiceState}

/-- An invocation is not idle. -/
theorem not_idle_of_invoked {effects before after : List Effect} {executor : ExecutorKind}
    {authorization : ExecutionAuthorization} {reply : ExecutorReply}
    (heffects : effects = before ++ .invoked executor authorization reply :: after) :
    ¬ ∀ e ∈ effects, Idle e :=
  fun h => h (.invoked executor authorization reply) (by rw [heffects]; simp)

/-- Idle effects are backed. -/
theorem backed_of_idle {effects : List Effect} (h : ∀ e ∈ effects, Idle e) :
    Backed W identity labels history states effects := by
  intro before executor authorization reply after heffects
  exact absurd h (not_idle_of_invoked heffects)

theorem backedOnce_of_idle {s s' : ServiceState} {effects : List Effect}
    (h : ∀ e ∈ effects, Idle e) : BackedOnce W identity labels s s' effects := by
  intro before executor authorization reply after heffects
  exact absurd h (not_idle_of_invoked heffects)

/-- Effects before the states, which do not invoke. -/
theorem Backed.after {first last : List Effect} (hfirst : ∀ e ∈ first, Idle e)
    (h : Backed W identity labels (history ++ first) states last) :
    Backed W identity labels history states (first ++ last) := by
  intro before executor authorization reply after heffects hside
  rcases append_cases heffects with ⟨rest, hmem⟩ | ⟨rest, rfl, hlast⟩
  · exact absurd hfirst (not_idle_of_invoked hmem)
  · obtain ⟨earlier, row, atMs, n, rfl, hhistory, hclaims⟩ := h _ _ _ _ _ hlast hside
    rw [List.append_assoc] at hhistory
    exact ⟨first ++ earlier, row, atMs, n, (List.append_assoc _ _ _).symm, hhistory, hclaims⟩

/-- Effects after the states, which do not invoke. -/
theorem Backed.before {first last : List Effect}
    (h : Backed W identity labels history states first) (hlast : ∀ e ∈ last, Idle e) :
    Backed W identity labels history states (first ++ last) := by
  intro before executor authorization reply after heffects hside
  rcases append_cases heffects with ⟨rest, hmem⟩ | ⟨rest, -, hmem⟩
  · exact h _ _ _ _ _ hmem hside
  · exact absurd hlast (not_idle_of_invoked hmem)

/-- Idle effects may follow. -/
theorem BackedOnce.before {s s' : ServiceState} {first last : List Effect}
    (h : BackedOnce W identity labels s s' first) (hlast : ∀ e ∈ last, Idle e) :
    BackedOnce W identity labels s s' (first ++ last) := by
  intro before executor authorization reply after heffects hside
  rcases append_cases heffects with ⟨rest, hmem⟩ | ⟨rest, -, hmem⟩
  · exact h _ _ _ _ _ hmem hside
  · exact absurd hlast (not_idle_of_invoked hmem)

/-- One proposal, then the others. -/
theorem Backed.cons {first last : List Effect} (hhistory : (states 0).data.history = history)
    (hfirst : BackedOnce W identity labels (states 0) (states 1) first)
    (hlast : Backed W identity labels (history ++ first) (fun n => states (n + 1)) last) :
    Backed W identity labels history states (first ++ last) := by
  intro before executor authorization reply after heffects hside
  rcases append_cases heffects with ⟨rest, hmem⟩ | ⟨rest, rfl, hmem⟩
  · obtain ⟨row, atMs, rfl, hclaims⟩ := hfirst _ _ _ _ _ hmem hside
    exact ⟨[], row, atMs, 0, rfl, by rw [hhistory, List.append_nil], hclaims⟩
  · obtain ⟨earlier, row, atMs, n, rfl, hstate, hclaims⟩ := hlast _ _ _ _ _ hmem hside
    rw [List.append_assoc] at hstate
    exact ⟨first ++ earlier, row, atMs, n + 1, (List.append_assoc _ _ _).symm, hstate, hclaims⟩

/-- An invocation for a side effect after the claim of a grant. -/
theorem backedOnce_claimed {s s' : ServiceState} {row : GrantRow} {atMs : Int}
    {executor : ExecutorKind} {authorization : ExecutionAuthorization} {reply : ExecutorReply}
    (h : Claims W identity labels authorization.action row atMs s s') :
    BackedOnce W identity labels s s'
      [.claimed row atMs, .invoked executor authorization reply] := by
  intro before executor' authorization' reply' after heffects hside
  match before with
  | [] => cases heffects
  | [first] =>
      rw [List.cons_append, List.cons.injEq, List.nil_append, List.cons.injEq] at heffects
      obtain ⟨rfl, heq, -⟩ := heffects
      injection heq with _ hauthorization _
      exact ⟨row, atMs, rfl, hauthorization ▸ h⟩
  | first :: second :: rest => simp at heffects

/-- An invocation without a side effect needs no grant. -/
theorem backedOnce_harmless {s s' : ServiceState} {executor : ExecutorKind}
    {authorization : ExecutionAuthorization} {reply : ExecutorReply}
    (h : authorization.descriptor.sideEffect = false) :
    BackedOnce W identity labels s s' [.invoked executor authorization reply] := by
  intro before executor' authorization' reply' after heffects hside
  match before with
  | [] =>
      rw [List.nil_append, List.cons.injEq] at heffects
      obtain ⟨heq, -⟩ := heffects
      injection heq with _ hauthorization _
      rw [← hauthorization, h] at hside
      cases hside
  | first :: rest => simp at heffects

/-! ## One proposal -/

/-- A proposal of the agent, ready for the policy. -/
structure Ready (identity : AgentExecutionIdentity) (labels : List ResourceLabel)
    (proposal : ActionProposal) : Prop where
  origin : proposal.context.origin = .agent
  agent : proposal.context.agent = some identity
  resources : proposal.context.resources = daemonResources labels proposal.action.arguments
  dataFlow : proposal.context.dataFlow = none

/-- A claim for a proposal of the agent selects a row that entitles it. -/
theorem entitles_of_claimRow {proposal : ActionProposal} (h : Ready identity labels proposal)
    {nowMs : Int} {rows : List GrantRow} {row : GrantRow}
    (hrow : claimRow (.ofProposal W.serde proposal (permissionSession proposal none)
      (permissionAgent proposal) nowMs) rows = some row) :
    row ∈ rows ∧ Entitles W identity labels proposal.action row nowMs := by
  obtain ⟨hmem, -⟩ := firstBy_spec hrow
  rw [mem_select, holds_and, holds_eq, holds_activeFor] at hmem
  obtain ⟨hmem, ⟨-, heffect⟩, hcapability, hscope, hrevoked, hexpiry, huses, hsession, hagent⟩ :=
    hmem
  refine ⟨hmem, Option.some.inj heffect, hrevoked, hexpiry, huses, ?_, ?_, hcapability, ?_⟩
  · rw [hagent, GrantQuery.ofProposal, permissionAgent, h.agent]
    rfl
  · rw [GrantQuery.ofProposal, permissionSession, h.agent] at hsession
    exact hsession
  · rw [hscope, GrantQuery.ofProposal, PermissionScope.fromProposal, h.resources,
      ActionProposal.destination, h.dataFlow]
    rfl

/-- A claim that succeeds counts the use of the row that it selects. -/
theorem claims_of_claim {proposal : ActionProposal} (hready : Ready identity labels proposal)
    {nowMs : Int} {rows rows' : List GrantRow} {id : PermissionId} {row : GrantRow}
    (hclaim : claimPermissionForProposal W.serde rows proposal (permissionSession proposal none)
      (permissionAgent proposal) nowMs = (.ok (some id), rows'))
    (hrow : claimRow (.ofProposal W.serde proposal (permissionSession proposal none)
      (permissionAgent proposal) nowMs) rows = some row) {s s' : ServiceState}
    (hstart : s.data.database.sessions.grants = rows)
    (hend : s'.data.database.sessions.grants = rows')
    (hreading : nowMs = W.clock (s.consulted + 2)) :
    Claims W identity labels proposal.action row nowMs s s' := by
  obtain ⟨hstored, hentitles⟩ := entitles_of_claimRow hready hrow
  have hrows : rows' = updateRows (claimable row.id nowMs) GrantRow.use rows := by
    have hselected := rows_claimPermissionForProposal hrow
    rw [hclaim] at hselected
    change rows' = _ at hselected
    rw [hselected]
    split
    · rfl
    · rename_i hchanged
      -- A claim of a row that is not claimable any more ends with an error.
      simp only [claimPermissionForProposal, hrow, if_neg hchanged] at hclaim
      cases hclaim
  have hclaimable : holds (claimable row.id nowMs row) = true :=
    (holds_claimable row.id nowMs row).mpr
      ⟨rfl, hentitles.unrevoked, hentitles.unexpired, hentitles.unexhausted⟩
  refine ⟨hstart ▸ hstored, hreading, hentitles, ?_, ?_⟩
  · rw [hend, hrows, hstart]
  · rw [hend, hrows, mem_updateRows]
    exact .inl ⟨row, hstored, hclaimable, rfl⟩

/-- What an executed proposal adds to the history: a claim, where the policy rests on a grant, then
the invocation. -/
theorem backed_executed {proposal : ActionProposal} (hready : Ready identity labels proposal)
    {s s' : ServiceState} {p : Prepared}
    (hp : Prepares W PolicyEngine.authorizeProposal proposal none s p)
    {authorization : ExecutionAuthorization}
    (hauthorization : p.evaluation.authorization = some authorization) {claimed : ServiceData}
    (hclaim : ClaimOutcome W p none s.data claimed)
    (hgrants : s'.data.database.sessions.grants = claimed.database.sessions.grants)
    {executor : ExecutorKind} {reply : ExecutorReply} :
    claimed.database.labels = s.data.database.labels ∧
      ∃ effects, (claimed.note [.invoked executor authorization reply]).history =
        s.data.history ++ effects ∧ BackedOnce W identity labels s s' effects := by
  obtain ⟨-, hdescriptor, haction, -⟩ := hp.coherent.carries authorization hauthorization
  cases hclaim with
  | unneeded hreason =>
      refine ⟨rfl, [.invoked executor authorization reply], rfl, backedOnce_harmless ?_⟩
      -- Otherwise the policy would have rested on a grant.
      rw [← Bool.not_eq_true]
      intro hside
      obtain ⟨context, -, heq⟩ := hp.evaluation
      have hsome := hp.coherent.isSome_iff.mp (Option.isSome_of_eq_some hauthorization)
      rw [heq, PolicyEngine.authorizeProposal] at hsome hreason
      rw [hdescriptor] at hside
      split at hsome
      · cases hsome
      · rename_i hcontract
        rw [if_neg hcontract] at hreason
        have hallow : (s.data.policy.decide p.descriptor proposal context).outcome = .allow := by
          simp only at hsome
          split at hsome <;> exact hsome
        have hallowed : (s.data.policy.decide p.descriptor proposal context).isAllowed = true := by
          rw [PolicyDecision.isAllowed, hallow]
          rfl
        simp only [hallowed, if_true] at hreason
        exact hreason (reason_of_agent_allow _ _ _ _ hready.origin hside hallow)
  -- The grant that decided was claimed, and the invocation follows the claim.
  | claimed id row rows hreason hclaimed hrow =>
      refine ⟨rfl, [.claimed row p.startedAtMs, .invoked executor authorization reply], ?_, ?_⟩
      · simp [ServiceData.note, ServiceData.withGrants, ServiceData.withDatabase]
      · apply backedOnce_claimed
        rw [haction]
        rw [hp.proposal] at hclaimed hrow
        exact claims_of_claim hready hclaimed hrow rfl hgrants hp.startedAtMs

/-- The labels stay, and nothing that is added to the history invokes an executor. -/
def Idles (s s' : ServiceState) : Prop :=
  s'.data.database.labels = s.data.database.labels ∧
    ∃ effects, s'.data.history = s.data.history ++ effects ∧ ∀ e ∈ effects, Idle e

instance : IsPreorder ServiceState Idles where
  refl _ := ⟨rfl, [], (List.append_nil _).symm, by simp⟩
  trans s s' s'' h h' := by
    obtain ⟨hlabels, effects, heffects, hidle⟩ := h
    obtain ⟨hlabels', effects', heffects', hidle'⟩ := h'
    refine ⟨hlabels'.trans hlabels, effects ++ effects', ?_, fun e he => ?_⟩
    · rw [heffects', heffects, List.append_assoc]
    · rcases List.mem_append.mp he with hmem | hmem
      · exact hidle e hmem
      · exact hidle' e hmem

theorem idles_of_quiet (s s' : ServiceState) (h : Quiet s s') : Idles s s' := by
  refine ⟨?_, [], ?_, List.forall_mem_nil _⟩
  · rw [h.data]
  · rw [h.data, List.append_nil]

/-- The labels stay, and what one proposal adds to the history is backed. -/
def Handled (W : World) (identity : AgentExecutionIdentity) (labels : List ResourceLabel)
    (s s' : ServiceState) : Prop :=
  s'.data.database.labels = s.data.database.labels ∧
    ∃ effects, s'.data.history = s.data.history ++ effects ∧
      BackedOnce W identity labels s s' effects

/-- What is idle is handled. -/
theorem handled_of_idles {s s' : ServiceState} (h : Idles s s')
    : Handled W identity labels s s' := by
  obtain ⟨hlabels, effects, hhistory, hidle⟩ := h
  exact ⟨hlabels, effects, hhistory, backedOnce_of_idle hidle⟩

/-- The handling of a proposal may begin with looks at the tables. -/
theorem Handled.of_same {s s₁ s' : ServiceState} (h : Handled W identity labels s₁ s')
    (hdata : s₁.data = s.data) (hconsulted : s₁.consulted = s.consulted) :
    Handled W identity labels s s' := by
  obtain ⟨hlabels, effects, hhistory, hbacked⟩ := h
  rw [hdata] at hlabels hhistory
  refine ⟨hlabels, effects, hhistory, fun before executor authorization reply after heq hside => ?_⟩
  obtain ⟨row, atMs, hbefore, hclaims⟩ :=
    hbacked before executor authorization reply after heq hside
  refine ⟨row, atMs, hbefore, ?_, ?_, hclaims.entitles, ?_, hclaims.used⟩
  · rw [← hdata]
    exact hclaims.stored
  · rw [← hconsulted]
    exact hclaims.reading
  · rw [← hdata]
    exact hclaims.counted

/-- A proposal of the agent rests on one claim, if it has a side effect. -/
theorem handled_executeProposal {proposal : ActionProposal} {s : ServiceState}
    (hready : Ready identity labels proposal) :
    Post (executeProposal W proposal none) s fun _ s' => Handled W identity labels s s' := by
  rw [executeProposal, processProposal, post_bind]
  refine Post.mono (prepare_spec _ proposal none s) ?_
  -- Without a decision nothing has happened.
  rintro (e | p) s₁ ⟨hquiet, hprepares⟩
  · exact handled_of_idles (idles_of_quiet _ _ hquiet)
  have hp := hprepares p rfl
  rw [next_ok, post_bind]
  refine Post.mono (perform_spec p none false s₁) ?_
  intro r s' hperformed
  have hhandled : Handled W identity labels s s' := by
    rcases hperformed.1 with ⟨-, hstopped⟩ | ⟨d, events, settled, hacted, hfinished⟩
    · obtain ⟨rows, effects, hdata, hidle⟩ := hstopped.data
      rw [hquiet.data] at hdata
      exact handled_of_idles ⟨by rw [hdata]; rfl, effects, by rw [hdata]; rfl, hidle⟩
    · obtain ⟨rest, hrest, hidle⟩ := history_finished hfinished
      -- The record of the execution touches neither labels nor grants.
      have hdatabase : s'.data.database.labels = d.database.labels ∧
          s'.data.database.sessions.grants = d.database.sessions.grants := by
        generalize s'.data = d' at hfinished
        cases hfinished <;> exact ⟨rfl, rfl⟩
      obtain ⟨hlabels, hgrants⟩ := hdatabase
      rw [hquiet.data] at hacted
      cases hacted with
      | blocked => exact handled_of_idles ⟨hlabels, rest, hrest, hidle⟩
      | executed authorization reply claimed hauthorization hclaim =>
          obtain ⟨hsame, effects, heffects, hbacked⟩ :=
            backed_executed hready hp hauthorization hclaim hgrants
          refine ⟨hlabels.trans hsame, effects ++ rest, ?_, hbacked.before hidle⟩
          rw [hrest, heffects, List.append_assoc]
  cases r with
  | error e => exact hhandled
  | ok receipt => exact hhandled

/-! ## Steps that do not invoke -/

/-- A storage method that leaves the labels alone. -/
def SparesLabels (d d' : Database) : Prop := d'.labels = d.labels

instance : IsPreorder Database SparesLabels where
  refl _ := rfl
  trans _ _ _ h h' := h'.trans h

theorem keeps_idles_query {α : Type} {method : DbMethod} {action : Act Database StorageError α}
    (h : Keeps SparesLabels action) : Keeps Idles (query W method action) :=
  Keeps.mapError (keeps_call_of (fun _ _ _ effects hlabels hidle => ⟨hlabels, effects, rfl, hidle⟩)
    h) _

/-- The session of the run is kept by idle effects. -/
theorem attendance_idles : Attendance W (fun _ => True) Idles where
  quiet := idles_of_quiet
  generates _ := trivial
  begun _ := keeps_idles_query fun _ => rfl
  finished _ _ _ := keeps_idles_query fun _ => rfl
  noted _ _ _ _ := keeps_idles_query fun _ => rfl

/-- So is its start. -/
theorem keeps_idles_startAgentRun (request : AgentRunRequest) :
    Keeps Idles (startAgentRun W request) := by
  have hconfigured : Keeps Idles (configuredAgent W request.agentId) :=
    Keeps.mono ((keeps_quiet_read rfl _).bind fun _ => keeps_orThrow _ _) idles_of_quiet
  have hconsult : ∀ {α : Type} (f : Nat → α), Keeps Idles (consult f) :=
    keeps_attended_consult (W := W) attendance_idles
  refine (keeps_require _ _).bind fun _ => hconfigured.bind fun configuration => ?_
  refine (hconsult _).bind fun startedAtMs => (hconsult _).bind fun _ => ?_
  refine (hconsult _).bind fun _ => (keeps_gets _).bind fun _ => ?_
  refine (keeps_beginAgentSession attendance_idles trivial _).bind fun _ => ?_
  exact (keeps_invokeAgent attendance_idles trivial _ _ _).bind fun _ => keeps_pure _

/-- So is its end. -/
theorem keeps_idles_endAgentRun (session : AgentSession) (invocation : AgentInvocationResult)
    (results : List (AgentProposalResult × AgentBrokerProposalResult)) :
    Keeps Idles (endAgentRun W session invocation results) := by
  refine (keeps_attended_consult (W := W) attendance_idles _).bind fun completion => ?_
  refine (keeps_orAbort attendance_idles trivial _ _ completion).bind fun stderrBytes => ?_
  exact (keeps_finishAgentSession attendance_idles trivial _).bind fun _ => keeps_pure _

/-! ## The proposals of an agent -/

theorem returns_orAbort {α ε : Type} (session : AgentSession) (status : ε → AgentSessionStatus)
    (error : ε → Failure) (r : Except ε α) (s : ServiceState) :
    Returns (orAbort W session status error r) s fun a s' => r = .ok a ∧ s' = s := by
  cases r with
  | ok a => simp [orAbort]
  | error e =>
      simp only [orAbort, abort, returns_bind, returns_throw]
      exact fun _ _ => trivial

/-- The daemon classifies the resources of the agent's proposal. It only looks at the tables. -/
theorem returns_classifyProposal {session : AgentSession} {proposal : ActionProposal}
    (hcontext : proposal.context = .ofAgent identity) (s : ServiceState) :
    Returns (classifyProposal W session proposal) s fun ready s' =>
      Ready identity s.data.database.labels ready ∧ s'.data = s.data ∧
        s'.consulted = s.consulted := by
  unfold classifyProposal
  cases harguments : proposal.action.arguments with
  | none =>
      rw [returns_pure]
      refine ⟨?_, rfl, rfl⟩
      constructor <;> simp [hcontext, harguments, ActionContext.ofAgent, daemonResources]
  | openApp app =>
      simp only [returns_bind]
      -- The classification is looked up in the labels, and the lookup changes nothing.
      have hread : Post (applicationClassification W app) s fun r s' =>
          s'.data = s.data ∧ s'.consulted = s.consulted ∧
            ∀ a, r = .ok a → classify s.data.database.labels .application app.asStr = a := by
        rw [applicationClassification, post_read rfl]
        refine ⟨fun _ => ⟨note_nil _, rfl, fun a ha => ?_⟩,
          fun _ => ⟨note_nil _, rfl, fun a ha => ?_⟩⟩
        · cases ha
        · exact Except.ok.inj ha
      rw [Returns, post_attempt]
      refine Post.mono hread ?_
      rintro r s' ⟨hdata, hconsulted, hvalue⟩ looked hlooked
      obtain rfl := Except.ok.inj hlooked
      refine (returns_orAbort session _ _ r s').mono ?_
      rintro classification s₂ ⟨rfl, rfl⟩
      have hclass : classify s.data.database.labels .application app.asStr = classification :=
        hvalue classification rfl
      subst hclass
      split
      · rw [returns_pure]
        refine ⟨?_, hdata, hconsulted⟩
        constructor <;>
          simp [classified, hcontext, harguments, ActionContext.ofAgent, daemonResources]
      · simp only [abort, returns_bind, returns_throw]
        exact fun _ _ => trivial

/-- One proposal: what it adds to the history is backed, and only a failure ends the run. -/
theorem handled_handleProposal (session : AgentSession) (index : Nat) {proposal : ActionProposal}
    (hcontext : proposal.context = .ofAgent identity) {s : ServiceState}
    (hlabels : s.data.database.labels = labels) :
    Post (handleProposal W session index proposal) s fun _ s' =>
      Handled W identity labels s s' := by
  rw [handleProposal, post_ite]
  constructor
  · intro _
    exact ((keeps_abort attendance_idles trivial _ _).post s).mono fun _ _ h => handled_of_idles h
  intro _
  refine Post.bind (((keeps_classifyProposal attendance_idles trivial proposal).post s).and
    (returns_classifyProposal hcontext s)) ?_ fun _ _ h => handled_of_idles h.1
  rintro ready s₁ ⟨-, hclassified⟩
  obtain ⟨hready, hdata, hconsulted⟩ := hclassified ready rfl
  rw [hlabels] at hready
  rw [post_bind, post_attempt]
  refine (handled_executeProposal hready).mono fun r s' hs' => ?_
  exact hs'.of_same hdata hconsulted

/-- The state after some of the proposals: the first proposal, then the others from where it
ends. -/
theorem state_handleProposals_cons (session : AgentSession) (index : Nat)
    (proposal : ActionProposal) (proposals : List ActionProposal) (s : ServiceState) :
    (handleProposals W session index (proposal :: proposals) s).2 =
      match handleProposal W session index proposal s with
      | (.ok _, s₁) => (handleProposals W session (index + 1) proposals s₁).2
      | (.error _, s₁) => s₁ := by
  rw [handleProposals]
  rcases bind_cases (handleProposal W session index proposal) (fun result => do
      let results ← handleProposals W session (index + 1) proposals
      return result :: results) s with ⟨e, s₁, hfirst, hstop⟩ | ⟨result, s₁, hfirst, hnext⟩
  · rw [hstop, hfirst]
  · rw [hnext, hfirst]
    exact state_map _ _ s₁

/-- Every proposal is backed by its own claims, by induction on the list. -/
theorem backed_handleProposals (session : AgentSession) {proposals : List ActionProposal}
    (hcontexts : ∀ proposal ∈ proposals, proposal.context = .ofAgent identity) (index : Nat)
    {s : ServiceState} (hlabels : s.data.database.labels = labels) :
    ∃ effects, (handleProposals W session index proposals s).2.data.history =
        s.data.history ++ effects ∧
      Backed W identity labels s.data.history
        (fun n => (handleProposals W session index (proposals.take n) s).2) effects := by
  induction proposals generalizing index s with
  | nil => exact ⟨[], (List.append_nil _).symm, backed_of_idle (by simp)⟩
  | cons proposal proposals ih =>
      have hfirst : Post (handleProposal W session index proposal) s fun _ s' =>
          Handled W identity labels s s' :=
        handled_handleProposal session index (hcontexts proposal (by simp)) hlabels
      have hrest : ∀ p ∈ proposals, p.context = .ofAgent identity :=
        fun p hp => hcontexts p (List.mem_cons_of_mem _ hp)
      have hnone : ∀ index s, (handleProposals W session index [] s).2 = s := fun _ _ => rfl
      cases hhandled : handleProposal W session index proposal s with
      | mk r s₁ =>
          rw [Post, hhandled] at hfirst
          obtain ⟨hsame, effects, hhistory, hbacked⟩ := hfirst
          cases r with
          -- The run stops here, and the later prefixes lead to the same state.
          | error e =>
              refine ⟨effects, ?_, ?_⟩
              · rw [state_handleProposals_cons, hhandled]
                exact hhistory
              · rw [← List.append_nil effects]
                refine Backed.cons rfl ?_ (backed_of_idle (by simp))
                simpa [state_handleProposals_cons, hhandled, hnone] using hbacked
          -- The other proposals follow, from the state that this one leaves behind.
          | ok result =>
              obtain ⟨effects', hhistory', hbacked'⟩ :=
                ih hrest (index + 1) (hsame.trans hlabels)
              refine ⟨effects ++ effects', ?_, Backed.cons rfl ?_ ?_⟩
              · rw [state_handleProposals_cons, hhandled]
                rw [hhistory', hhistory, List.append_assoc]
              · simpa [state_handleProposals_cons, hhandled, hnone] using hbacked
              · rw [← hhistory]
                simpa [state_handleProposals_cons, hhandled] using hbacked'

/-! ## The run of an agent -/

/-- Nothing that the process prints decides the context of its proposals. -/
theorem returns_invokeAgent (configuration : AgentConfiguration) (session : AgentSession)
    (input : String) (s : ServiceState) :
    Returns (invokeAgent W configuration identity session input) s fun invocation _ =>
      ∀ proposal ∈ invocation.proposals, proposal.context = .ofAgent identity := by
  simp only [invokeAgent, returns_bind, returns_gets]
  refine Post.mono (Q := fun _ _ => True) trivial fun r s₁ _ started hstarted => ?_
  refine (returns_orAbort session _ _ started s₁).mono fun _ s₂ _ => ?_
  refine Post.mono (Q := fun _ _ => True) trivial fun r s₃ _ printed hprinted => ?_
  refine (returns_orAbort session _ _ _ s₃).mono ?_
  rintro invocation s₄ ⟨hparsed, -⟩
  cases printed with
  | error e => cases hparsed
  | ok bytes => exact context_of_parseAgentOutput hparsed

/-- Identity that a run of an agent gets when it starts in a state. -/
def identityIn (W : World) (s : ServiceState) (agentId : AgentId) : AgentExecutionIdentity where
  agentId := agentId
  instanceId := .generate .agentInstance (W.stamp (s.consulted + 1))
  sessionId := .generate .agentSession (W.stamp (s.consulted + 2))

/-- The agent found is the one asked for. -/
theorem returns_configuredAgent (agentId : AgentId) (s : ServiceState) :
    Returns (configuredAgent W agentId) s fun configuration s' =>
      configuration.id = agentId ∧ s'.consulted = s.consulted := by
  rw [configuredAgent, returns_bind]
  refine (returns_read rfl _ s).mono ?_
  rintro agents s' ⟨-, -, hconsulted⟩
  rw [returns_orThrow]
  intro configuration hfound
  exact ⟨by simpa using List.find?_some hfound, hconsulted⟩

/-- A run that comes to its proposals has given them the identity of the agent. -/
theorem returns_startAgentRun (request : AgentRunRequest) (s : ServiceState) :
    Returns (startAgentRun W request) s fun started _ =>
      ∀ proposal ∈ started.2.proposals,
        proposal.context = .ofAgent (identityIn W s request.agentId) := by
  simp only [startAgentRun, returns_bind, returns_require]
  intro _
  refine (returns_configuredAgent request.agentId s).mono ?_
  rintro configuration s₁ ⟨hid, hconsulted⟩
  simp only [returns_now, returns_generate, returns_gets]
  have hidentity : identityIn W s request.agentId = ⟨configuration.id,
      .generate .agentInstance (W.stamp s₁.next.consulted),
      .generate .agentSession (W.stamp s₁.next.next.consulted)⟩ := by
    rw [identityIn, hid, ← hconsulted]
    rfl
  rw [← hidentity]
  refine returns_of_forall fun _ s₂ => ?_
  refine (returns_invokeAgent configuration _ request.input s₂).mono fun invocation _ h => ?_
  rw [returns_pure]
  exact h

/-- For every output of the process and every state: in what a run of an agent adds to the history,
an executor is invoked for a side effect only right after the claim of a grant. The claim is made
between the states of the run before and after a proposal: the grant is in the table of the first,
it is unrevoked, unexpired and unexhausted at the time that the daemon reads when it begins with the
proposal, it is bound to exactly this agent and to no session or to exactly this one, it has exactly
the scope of the action under the daemon's own classification, and in the table of the second its
use is counted. -/
theorem agent_side_effects_claimed (W : World) (s : ServiceState) (request : AgentRunRequest) :
    ∃ effects, (runAgent W request s).2.data.history = s.data.history ++ effects ∧
      ∀ before executor authorization reply after,
        effects = before ++ .invoked executor authorization reply :: after →
        authorization.descriptor.sideEffect = true →
        ∃ earlier row atMs n, before = earlier ++ [.claimed row atMs] ∧
          (runProposals W request n s).2.data.history = s.data.history ++ earlier ∧
          Claims W (identityIn W s request.agentId) s.data.database.labels authorization.action
            row atMs (runProposals W request n s).2 (runProposals W request (n + 1) s).2 := by
  -- Before the proposals are handled nothing is executed, and the labels stay.
  have hidle : Post (startAgentRun W request) s fun _ s' => Idles s s' :=
    (keeps_idles_startAgentRun request).post s
  have hstarted := returns_startAgentRun (W := W) request s
  rw [runAgent_eq]
  cases hstart : startAgentRun W request s with
  | mk r s₁ =>
      rw [Post, hstart] at hidle
      obtain ⟨hlabels, first, hfirst, hfirstIdle⟩ := hidle
      cases r with
      -- The run does not get as far as the proposals.
      | error e =>
          have hnone : Backed W (identityIn W s request.agentId) s.data.database.labels
              s.data.history (fun n => (runProposals W request n s).2) first :=
            backed_of_idle hfirstIdle
          refine ⟨first, ?_, hnone⟩
          rw [bind_of_error hstart]
          exact hfirst
      | ok started =>
          have hstates : ∀ n, (runProposals W request n s).2 =
              (handleProposals W started.1 0 (started.2.proposals.take n) s₁).2 := fun n => by
            rw [runProposals, bind_of_ok hstart]
          obtain ⟨effects, hhistory, hbacked⟩ := backed_handleProposals (W := W) started.1
            (hstarted.of_eq hstart) 0 hlabels
          rw [hfirst] at hbacked
          -- After the proposals nothing more is executed.
          have hlast : Post (handleProposals W started.1 0 started.2.proposals >>=
              endAgentRun W started.1 started.2) s₁ fun _ s' => ∃ last,
                s'.data.history = s₁.data.history ++ effects ++ last ∧ ∀ e ∈ last, Idle e := by
            rw [← hhistory]
            refine Post.bind (Q := fun _ s' => s' = (handleProposals W started.1 0
              started.2.proposals s₁).2) rfl ?_ ?_
            · rintro results _ rfl
              obtain ⟨-, last, hlast⟩ := keeps_idles_endAgentRun (W := W) started.1 started.2
                results (handleProposals W started.1 0 started.2.proposals s₁).2
              exact ⟨last, hlast⟩
            · rintro e _ rfl
              exact ⟨[], (List.append_nil _).symm, by simp⟩
          rw [bind_of_ok hstart]
          obtain ⟨last, hend, hlastIdle⟩ := hlast
          refine ⟨first ++ (effects ++ last), ?_, ?_⟩
          · rw [hend, hfirst]
            simp only [List.append_assoc]
          · have hall : Backed W (identityIn W s request.agentId) s.data.database.labels
                s.data.history (fun n => (runProposals W request n s).2)
                (first ++ (effects ++ last)) := by
              simp only [hstates]
              exact Backed.after hfirstIdle (hbacked.before hlastIdle)
            exact hall

end

end Halquen.Service.AgentGrants
