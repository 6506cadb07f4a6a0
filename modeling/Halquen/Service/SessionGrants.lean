import Halquen.Service.GrantClaims
import Halquen.Service.GrantRuns

/-!
# Grants of a session

The user may grant or deny an action for the length of a session: a chat, the run of an agent, or
the life of the daemon. A grant for a chat or for an agent's run decides what is processed in its
session from the moment at which it is accepted until it is revoked; a grant for the daemon's own
session is stored and decides nothing (`session_grant_decides`).
-/

set_option autoImplicit false

namespace Halquen.Service.SessionGrants

open Halquen.Domain.Ids Halquen.Domain.Capability Halquen.Domain.Security
open Halquen.Policy.Engine Halquen.Policy.Specification Halquen.Policy.Authorization
open Halquen.Capabilities.Executor Halquen.Protocol.Messages
open Halquen.Library.Action Halquen.Library.Action.Act Halquen.Library.Run Halquen.Library.Sql
open Halquen.Library.TextCodec
open Halquen.Service.Context Halquen.Service.State Halquen.Service.Proposals
open Halquen.Service.SecurityService Halquen.Service.Handler Halquen.Service.GrantClaims
open Halquen.Service.GrantRuns Halquen.Service.Durability Halquen.Service.Walk
open Halquen.Storage.Grants Halquen.Storage.Sessions Halquen.Storage.GrantUse Halquen.Storage.Sqlite

/-! ## Sessions -/

/-- A proposal is processed inside a session. What an agent proposes is processed in the agent's
session and in no chat. -/
def Inside (s : ServiceState) (proposal : ActionProposal) (sessionId : Option ChatSessionId) :
    PermissionSessionScope → Prop
  | .chat id => sessionId = some id ∧ proposal.context.agent = none
  | .agent id => ∃ identity, proposal.context.agent = some identity ∧ identity.sessionId = id
  | .daemon id => s.data.daemonSessionId = id

/-- A session for which the service looks grants up. -/
def LookedUp : PermissionSessionScope → Prop
  | .chat _ | .agent _ => True
  | .daemon _ => False

/-- The tables without a grant. -/
def withoutGrant (id : PermissionId) (d : Database) : Database :=
  { d with sessions := { d.sessions with
      grants := d.sessions.grants.filter fun row => row.id != id.asStr } }

/-- No row of the grant is revoked. -/
def Unrevoked (id : PermissionId) (s : ServiceState) : Prop :=
  ∀ row ∈ s.data.database.sessions.grants, row.id = id.asStr → row.revokedAtMs = none

/-- The scope of the proposal can be read back from its text. -/
def ScopeRead (W : World) (proposal : ActionProposal) : Prop :=
  W.serde.fromText (W.serde.toText (.fromProposal proposal)) = some (.fromProposal proposal)

/-! ## The lookup -/

section

variable {W : World}

/-- The policy context follows from the row that the lookup finds. -/
theorem contextAt_eq (W : World) (d : Database) (proposal : ActionProposal)
    (sessionId : Option ChatSessionId) (timestamp : Int) :
    contextAt W d proposal sessionId timestamp =
      match lookupRow (queryAt W proposal sessionId timestamp) d.sessions.grants with
      | none => .ok (contextFor d.profile proposal sessionId timestamp)
      | some row => (permissionFromRow W.serde row).map
          (contextFor d.profile proposal sessionId timestamp).addPermissionGrant := by
  unfold contextAt activePermissionGrantForProposal
  change Except.map _ (match lookupRow (queryAt W proposal sessionId timestamp) _ with
    | none => .ok none
    | some row => (permissionFromRow W.serde row).map some) = _
  cases lookupRow (queryAt W proposal sessionId timestamp) d.sessions.grants with
  | none => rfl
  | some row =>
      change Except.map _ (Except.map some (permissionFromRow W.serde row)) =
        Except.map _ (permissionFromRow W.serde row)
      cases permissionFromRow W.serde row <;> rfl

/-- Only the rows that pass the filter matter. -/
theorem contextAt_congr {d d' : Database} {proposal : ActionProposal}
    {sessionId : Option ChatSessionId} {timestamp : Int} (hprofile : d'.profile = d.profile)
    (hselect : select (activeFor (queryAt W proposal sessionId timestamp)) d'.sessions.grants =
      select (activeFor (queryAt W proposal sessionId timestamp)) d.sessions.grants) :
    contextAt W d' proposal sessionId timestamp = contextAt W d proposal sessionId timestamp := by
  rw [contextAt_eq, contextAt_eq, lookupRow, lookupRow, hselect, hprofile]

/-- A grant none of whose rows passes the filter can be left out. -/
theorem contextAt_withoutGrant {d : Database} {id : PermissionId} {proposal : ActionProposal}
    {sessionId : Option ChatSessionId} {timestamp : Int}
    (hinactive : ∀ row ∈ d.sessions.grants, row.id = id.asStr →
      ¬ holds (activeFor (queryAt W proposal sessionId timestamp) row) = true) :
    contextAt W (withoutGrant id d) proposal sessionId timestamp =
      contextAt W d proposal sessionId timestamp := by
  refine contextAt_congr rfl ?_
  unfold select withoutGrant
  rw [List.filter_filter]
  refine List.filter_congr fun other hother => ?_
  by_cases hsame : other.id = id.asStr
  · simp [hinactive other hother hsame, hsame]
  · simp [hsame]

/-- A row that passes the filter is read as an exact grant. -/
theorem exactGrant_of_row {proposal : ActionProposal} (hserde : ScopeRead W proposal)
    {sessionId : Option ChatSessionId} {timestamp : Int} {row : GrantRow} {g : PermissionGrant}
    (hread : permissionFromRow W.serde row = .ok g)
    (hactive : holds (activeFor (queryAt W proposal sessionId timestamp) row) = true)
    (profile : SecurityProfile) :
    ExactGrant (withGrants (contextFor profile proposal sessionId timestamp) [g]) proposal
      g.effect g := by
  obtain ⟨hlive, hscope⟩ := active_of_permissionFromRow hread hserde hactive
  rw [contextFor_eq]
  exact ⟨List.mem_singleton_self g, rfl, hlive, hscope⟩

/-- The order of the lookup puts every Deny first. -/
theorem effect_of_first {row other : GrantRow} (hle : lookupKey row ≤ lookupKey other)
    (hdeny : other.effect = "deny") : row.effect = "deny" := by
  by_contra hword
  rw [lookupKey, lookupKey, if_neg hword, if_pos hdeny, Prod.Lex.toLex_le_toLex] at hle
  simp at hle

theorem effect_eq_deny_of_word {effect : PermissionEffect}
    (h : permissionEffect effect = "deny") : effect = .deny := by
  cases effect with
  | deny => rfl
  | allow => exact absurd h (by decide)

/-- What the policy context of a proposal holds: nothing where no row is active for it, else the
grant of one active row, which is a Deny if any of them is. -/
theorem contextAt_cases {d : Database} {proposal : ActionProposal} (hserde : ScopeRead W proposal)
    {sessionId : Option ChatSessionId} {timestamp : Int} {context : PolicyContext}
    (h : contextAt W d proposal sessionId timestamp = .ok context) :
    (select (activeFor (queryAt W proposal sessionId timestamp)) d.sessions.grants = [] ∧
        context = contextFor d.profile proposal sessionId timestamp) ∨
      ∃ row ∈ select (activeFor (queryAt W proposal sessionId timestamp)) d.sessions.grants,
        ∃ g : PermissionGrant, permissionEffect g.effect = row.effect ∧
          (∀ other ∈ select (activeFor (queryAt W proposal sessionId timestamp)) d.sessions.grants,
            other.effect = "deny" → g.effect = .deny) ∧
          context = withGrants (contextFor d.profile proposal sessionId timestamp) [g] ∧
          ExactGrant context proposal g.effect g := by
  rw [contextAt_eq] at h
  cases hrow : lookupRow (queryAt W proposal sessionId timestamp) d.sessions.grants with
  -- No active row: the context has no grant.
  | none =>
      rw [hrow] at h
      cases h
      rw [lookupRow, firstBy_eq_none_iff] at hrow
      exact .inl ⟨hrow, rfl⟩
  | some row =>
      rw [hrow] at h
      dsimp only at h
      obtain ⟨hmem, hleast⟩ := firstBy_spec hrow
      cases hread : permissionFromRow W.serde row with
      | error e =>
          rw [hread] at h
          cases h
      -- The first row is in the context alone, and a denying row would have come first.
      | ok g =>
          rw [hread] at h
          cases h
          have heffect := effect_of_permissionFromRow hread
          refine .inr ⟨row, hmem, g, heffect, ?_, contextFor_addPermissionGrant _ _ _ _ g, ?_⟩
          · intro other hother hdeny
            have hfirst := effect_of_first (hleast other hother) hdeny
            exact effect_eq_deny_of_word (heffect.trans hfirst)
          · rw [contextFor_addPermissionGrant]
            exact exactGrant_of_row hserde hread ((mem_select _ _ _).mp hmem).2 d.profile

end

/-! ## Decisions with and without a grant -/

section

variable (engine : PolicyEngine) (c : CapabilityDescriptor) (proposal : ActionProposal)
  (x : ExecutionId) {context : PolicyContext}

/-- The outcome of an evaluation that meets the contract is that of the decision. -/
theorem outcome_authorizeProposal_of_contract (hcontract : Contract c proposal) :
    (engine.authorizeProposal c proposal x context).decision =
      engine.decide c proposal context := by
  unfold PolicyEngine.authorizeProposal
  rw [(contractHolds_iff c proposal).mpr hcontract]
  simp only [Bool.not_true, Bool.false_eq_true, if_false]
  split <;> rfl

theorem outcome_authorizeProposal_of_not_contract (hcontract : ¬ Contract c proposal) :
    (engine.authorizeProposal c proposal x context).decision.outcome = .deny := by
  unfold PolicyEngine.authorizeProposal
  rw [← contractHolds_iff, Bool.not_eq_true] at hcontract
  rw [hcontract]
  rfl

/-- An exact Deny denies. -/
theorem denied_of_exactGrant {g : PermissionGrant} (h : ExactGrant context proposal .deny g) :
    (engine.authorizeProposal c proposal x context).decision.outcome = .deny := by
  by_cases hcontract : Contract c proposal
  · rw [outcome_authorizeProposal_of_contract engine c proposal x hcontract,
      outcome_decide_eq_deny_iff]
    intro hclear
    exact hclear.not_denied ⟨g, h⟩
  · exact outcome_authorizeProposal_of_not_contract engine c proposal x hcontract

/-- Under an exact Allow nothing is left to be confirmed. -/
theorem not_confirm_of_exactGrant {g : PermissionGrant} (h : ExactGrant context proposal .allow g) :
    (engine.authorizeProposal c proposal x context).decision.outcome ≠ .confirm := by
  by_cases hcontract : Contract c proposal
  · rw [outcome_authorizeProposal_of_contract engine c proposal x hcontract]
    intro hconfirm
    have hclear : Unobstructed c proposal context := by
      by_contra hobstructed
      rw [(outcome_decide_eq_deny_iff engine c proposal context).mpr hobstructed] at hconfirm
      cases hconfirm
    have hallow : (engine.decide c proposal context).outcome = .allow := by
      refine (outcome_decide_eq_allow_iff engine c proposal context).mpr ⟨hclear, ?_⟩
      have hbaseline := outcome_baseline_ne_deny engine c proposal context.profile
        hclear.not_privileged hclear.not_unknown
      cases houtcome : (engine.baseline c proposal context.profile).outcome with
      | allow => exact .inl rfl
      | confirm => exact .inr ⟨rfl, g, h⟩
      | deny => exact absurd houtcome hbaseline
    rw [hallow] at hconfirm
    cases hconfirm
  · rw [outcome_authorizeProposal_of_not_contract engine c proposal x hcontract]
    decide

/-- A single exact Allow turns a confirmation into Allow. -/
theorem allowed_of_exactGrant {context₀ : PolicyContext} {g : PermissionGrant}
    (h : ExactGrant context proposal .allow g) (hsingle : context = withGrants context₀ [g])
    (hconfirm : (engine.authorizeProposal c proposal x
      (withGrants context₀ [])).decision.outcome = .confirm) :
    (engine.authorizeProposal c proposal x context).decision.outcome = .allow := by
  have hcontract : Contract c proposal := by
    by_contra hcontract
    rw [outcome_authorizeProposal_of_not_contract engine c proposal x hcontract] at hconfirm
    cases hconfirm
  have hnot := not_confirm_of_exactGrant engine c proposal x h
  rw [outcome_authorizeProposal_of_contract engine c proposal x hcontract] at hconfirm hnot ⊢
  have hclear₀ : Unobstructed c proposal (withGrants context₀ []) := by
    by_contra hobstructed
    rw [(outcome_decide_eq_deny_iff engine c proposal _).mpr hobstructed] at hconfirm
    cases hconfirm
  -- The grant obstructs nothing, for it is no Deny.
  have hclear : Unobstructed c proposal context := by
    refine { hclear₀ with scopes := ?_, not_denied := ?_ }
    · rw [hsingle]
      exact hclear₀.scopes
    · rintro ⟨g', hg'⟩
      have hmem := hg'.mem
      rw [hsingle] at hmem
      rw [List.mem_singleton.mp hmem] at hg'
      cases h.effect_eq.symm.trans hg'.effect_eq
  cases houtcome : (engine.decide c proposal context).outcome with
  | allow => rfl
  | confirm => exact absurd houtcome hnot
  | deny => exact absurd hclear ((outcome_decide_eq_deny_iff engine c proposal context).mp houtcome)

end

/-! ## The stored grant -/

/-- A row that was written for the grant; only the time of the first grant under the identifier, the
count of the uses and a revocation may be others. -/
def RowOf (W : World) (grant : PermissionGrant) (row : GrantRow) : Prop :=
  row = { GrantRow.ofGrant W.serde grant with
    grantedAtMs := row.grantedAtMs
    useCount := row.useCount
    revokedAtMs := row.revokedAtMs }

section

variable {W : World}

/-- An upsert that succeeds stores a row of the grant. -/
theorem rowOf_upsert {grant : PermissionGrant} {rows rows' : List GrantRow}
    (h : Storage.Grants.upsertPermissionGrant W.serde rows grant = .ok rows') :
    ∃ row ∈ rows', row.id = grant.id.asStr ∧ RowOf W grant row := by
  rw [upsertPermissionGrant_spec h, upsertRow]
  split
  · rename_i hany
    obtain ⟨old, hold, hkey⟩ := List.any_eq_true.mp hany
    rw [decide_eq_true_eq] at hkey
    refine ⟨(GrantRow.ofGrant W.serde grant).replacedBy old, ?_, hkey, ?_⟩
    · exact List.mem_map.mpr ⟨old, hold, if_pos hkey⟩
    · unfold RowOf GrantRow.replacedBy
      rw [hkey]
  · exact ⟨GrantRow.ofGrant W.serde grant, by simp, rfl, rfl⟩

theorem RowOf.follows {grant : PermissionGrant} {row row' : GrantRow} (h : RowOf W grant row)
    (hfollows : Follows row row') : RowOf W grant row' := by
  unfold RowOf at h ⊢
  rw [hfollows.columns, h]

/-- An accepted grant is stored, and what it says about its lifetime is what was asked for. -/
structure Accepted (W : World) (input : PermissionGrantUpsert) (grant : PermissionGrant)
    (s : ServiceState) : Prop where
  stored : ∃ row ∈ s.data.database.sessions.grants, row.id = grant.id.asStr ∧ RowOf W grant row
  lifetime : grant.lifetime = input.lifetime
  limits : input.lifetime = .session → grant.expiresAtMs = none ∧ grant.useLimit = none

/-- A grant for a session has no expiry and no limit of its uses. -/
theorem returns_grantLimits (input : PermissionGrantUpsert) (s : ServiceState) :
    Returns (grantLimits W input) s fun limits _ =>
      input.lifetime = .session → limits.2 = (none, none) := by
  unfold grantLimits
  cases input.lifetime with
  | session =>
      rw [returns_bind]
      refine returns_of_forall fun session s₁ => ?_
      rw [returns_bind]
      refine returns_of_forall fun _ s₂ => ?_
      rw [returns_pure]
      exact fun _ => rfl
  | once => exact returns_of_forall fun _ _ h => nomatch h
  | «until» => exact returns_of_forall fun _ _ h => nomatch h
  | always => exact returns_of_forall fun _ _ h => nomatch h

theorem returns_upsertPermissionGrant (input : PermissionGrantUpsert) (s : ServiceState) :
    Returns (SecurityService.upsertPermissionGrant W input) s fun response s' =>
      ∀ grant, response = .permissionSaved grant → Accepted W input grant s' := by
  simp only [SecurityService.upsertPermissionGrant, returns_bind, returns_gets, returns_orThrow,
    returns_require]
  intro descriptor _ _
  refine returns_of_forall fun _ s₁ => ?_
  rw [returns_now]
  intro _
  refine (returns_grantLimits input _).mono fun limits s₂ hlimits => ?_
  rw [returns_generate]
  generalize hgrant : grantOf input _ limits _ = grant
  refine returns_query ?_
  rw [Returns, saveGrant, post_onGrants]
  cases hrows : Storage.Grants.upsertPermissionGrant W.serde
      s₂.next.data.database.sessions.grants grant with
  | error e =>
      intro _ h
      cases h
  | ok rows =>
      intro _ _
      rw [returns_pure]
      intro saved hsaved
      cases hsaved
      refine ⟨rowOf_upsert hrows, by rw [← hgrant]; rfl, fun hsession => ?_⟩
      have hnone := hlimits hsession
      rw [← hgrant]
      exact ⟨congrArg Prod.fst hnone, congrArg Prod.snd hnone⟩

/-- Identifiers of grants are unique in every reachable state. -/
theorem uniqueKey_of_operates {asked : Option PermissionId} {s s' : ServiceState}
    (h : Operates W asked s s') (hkeys : UniqueKey GrantRow.id s.data.database.sessions.grants) :
    UniqueKey GrantRow.id s'.data.database.sessions.grants := by
  obtain ⟨-, operations, hrun, -⟩ := h
  rw [hrun]
  exact run_invariant uniqueKey_perform hkeys operations

theorem uniqueKey_after (registry : CapabilityRegistry) (policy : PolicyEngine)
    (inputs : List Input) :
    UniqueKey GrantRow.id (after W registry policy inputs).data.database.sessions.grants := by
  have hstep : ∀ (s : ServiceState) (input : Input),
      UniqueKey GrantRow.id s.data.database.sessions.grants →
        UniqueKey GrantRow.id (step W s input).data.database.sessions.grants := by
    intro s input hkeys
    exact uniqueKey_of_operates (operates_step s input) hkeys
  have hstart : Operates W none (blank W registry policy) (initial W registry policy) :=
    keeps_fromParts starting_operates registry policy _
  have hinitial := uniqueKey_of_operates hstart List.nodup_nil
  exact run_invariant (I := fun s : ServiceState =>
    UniqueKey GrantRow.id s.data.database.sessions.grants) hstep hinitial inputs

/-! ## The filter -/

/-- Inside its session a grant for a chat or for an agent is in the session that is looked up. -/
theorem permissionSession_of_inside {s : ServiceState} {proposal : ActionProposal}
    {sessionId : Option ChatSessionId} {session : PermissionSessionScope}
    (h : Inside s proposal sessionId session) (hlooked : LookedUp session) :
    permissionSession proposal sessionId = some session := by
  cases session with
  | chat id =>
      obtain ⟨rfl, hagent⟩ := h
      unfold permissionSession
      rw [hagent]
      rfl
  | agent id =>
      obtain ⟨identity, hagent, rfl⟩ := h
      unfold permissionSession
      rw [hagent]
  | daemon id => exact hlooked.elim

/-- No lookup is in the session of the daemon. -/
theorem permissionSession_ne_daemon (proposal : ActionProposal) (sessionId : Option ChatSessionId)
    (id : DaemonSessionId) : permissionSession proposal sessionId ≠ some (.daemon id) := by
  unfold permissionSession
  cases proposal.context.agent with
  | some identity => simp
  | none => cases sessionId <;> simp

theorem holds_activeFor_rowOf {grant : PermissionGrant} {row : GrantRow} (hrow : RowOf W grant row)
    (hrevoked : row.revokedAtMs = none) (hlifetime : grant.lifetime = .session)
    (hexpiry : grant.expiresAtMs = none) (hlimit : grant.useLimit = none)
    {proposal : ActionProposal} {sessionId : Option ChatSessionId} {nowMs : Int}
    (hsession : grant.session = permissionSession proposal sessionId)
    (hscope : grant.scope = .fromProposal proposal)
    (hagent : grant.agentId = permissionAgent proposal) :
    holds (activeFor (queryAt W proposal sessionId nowMs) row) = true := by
  rw [holds_activeFor]
  refine ⟨?_, ?_, hrevoked, ?_, ?_, .inr ⟨?_, ?_, ?_⟩, ?_⟩
  · rw [hrow]
    exact congrArg (fun scope : PermissionScope => scope.capabilityId.asStr) hscope
  · rw [hrow]
    exact congrArg W.serde.toText hscope
  · rw [hrow]
    simp [GrantRow.ofGrant, hexpiry]
  · rw [hrow]
    simp [GrantRow.ofGrant, hlimit]
  · rw [hrow]
    simp [GrantRow.ofGrant, hlifetime, permissionLifetime]
  · rw [hrow]
    exact congrArg (Option.map permissionSessionKind) hsession
  · rw [hrow]
    exact congrArg (Option.map permissionSessionId) hsession
  · rw [hrow]
    exact congrArg (Option.map TypedId.asStr) hagent

/-- A row that is for the session of a daemon passes no filter. -/
theorem not_holds_activeFor_daemon {grant : PermissionGrant} {row : GrantRow}
    (hrow : RowOf W grant row) (hlifetime : grant.lifetime = .session) {id : DaemonSessionId}
    (hsession : grant.session = some (.daemon id)) (proposal : ActionProposal)
    (sessionId : Option ChatSessionId) (nowMs : Int) :
    ¬ holds (activeFor (queryAt W proposal sessionId nowMs) row) = true := by
  rw [holds_activeFor]
  rintro ⟨-, -, -, -, -, hcolumns, -⟩
  rw [hrow] at hcolumns
  rcases hcolumns with ⟨hother, -⟩ | ⟨-, hkind, hid⟩
  · exact hother (by simp [GrantRow.ofGrant, hlifetime, permissionLifetime])
  · have hsame : grant.session = permissionSession proposal sessionId :=
      permissionSession_columns_injective hkind hid
    exact permissionSession_ne_daemon proposal sessionId id (hsame.symm.trans hsession)

end

/-! ## What a session grant does -/

/-- The grant decides: a Deny denies, and an Allow leaves nothing to be confirmed and allows what
would have to be confirmed without it. -/
structure Decides (W : World) (grant : PermissionGrant) (proposal : ActionProposal)
    (sessionId : Option ChatSessionId) (s : ServiceState) (p : Prepared) : Prop where
  denies : grant.effect = .deny → p.evaluation.decision.outcome = .deny
  settles : grant.effect = .allow → p.evaluation.decision.outcome ≠ .confirm
  allows : grant.effect = .allow → ∀ context,
    contextAt W (withoutGrant grant.id s.data.database) proposal sessionId
      (W.clock (s.consulted + 3)) = .ok context →
    (s.data.policy.authorizeProposal p.descriptor proposal p.executionId
      context).decision.outcome = .confirm →
    p.evaluation.decision.outcome = .allow

/-- The evaluation is the one that there would be without the grant. -/
def Ignored (W : World) (grant : PermissionGrant) (proposal : ActionProposal)
    (sessionId : Option ChatSessionId) (s : ServiceState) : Prop :=
  contextAt W (withoutGrant grant.id s.data.database) proposal sessionId
      (W.clock (s.consulted + 3)) =
    contextAt W s.data.database proposal sessionId (W.clock (s.consulted + 3))

section

variable {W : World} {grant : PermissionGrant} {proposal : ActionProposal}
  {sessionId : Option ChatSessionId} {s : ServiceState} {row : GrantRow}

/-- Rows of other grants are not touched. -/
theorem mem_withoutGrant {other : GrantRow} {id : PermissionId} {d : Database} :
    other ∈ (withoutGrant id d).sessions.grants ↔
      other ∈ d.sessions.grants ∧ other.id ≠ id.asStr := by
  simp [withoutGrant]

/-- If the evaluation without an Allow grant leaves the proposal to be confirmed, then no grant is
exact for it, and the one that is looked up beside it is an Allow too. -/
theorem effect_of_confirm (hserde : ScopeRead W proposal)
    (hkeys : UniqueKey GrantRow.id s.data.database.sessions.grants)
    (hmem : row ∈ s.data.database.sessions.grants) (hid : row.id = grant.id.asStr)
    (hallow : row.effect = "allow") {nowMs : Int} {context₀ : PolicyContext}
    (hcontext₀ : contextAt W (withoutGrant grant.id s.data.database) proposal sessionId nowMs =
      .ok context₀)
    {engine : PolicyEngine} {c : CapabilityDescriptor} {x : ExecutionId}
    (hconfirm : (engine.authorizeProposal c proposal x context₀).decision.outcome = .confirm) :
    context₀ = contextFor s.data.database.profile proposal sessionId nowMs ∧
      ∀ other ∈ select (activeFor (queryAt W proposal sessionId nowMs))
        s.data.database.sessions.grants, other.effect ≠ "deny" := by
  -- The grant itself allows, so a denying row would be active without it as well.
  rcases contextAt_cases hserde hcontext₀ with ⟨hnone, rfl⟩ | ⟨row₀, -, g₀, -, -, -, hexact⟩
  · refine ⟨rfl, fun other hother hdeny => ?_⟩
    obtain ⟨hstored, hactive⟩ := (mem_select _ _ _).mp hother
    have hne : other.id ≠ grant.id.asStr := by
      intro hsame
      rw [hkeys.eq_of_mem hstored hmem (hsame.trans hid.symm), hallow] at hdeny
      exact absurd hdeny (by decide)
    have hleft : other ∈ select (activeFor (queryAt W proposal sessionId nowMs))
        (withoutGrant grant.id s.data.database).sessions.grants :=
      (mem_select _ _ _).mpr ⟨mem_withoutGrant.mpr ⟨hstored, hne⟩, hactive⟩
    rw [hnone] at hleft
    cases hleft
  · -- An exact grant that is looked up settles the matter, one way or the other.
    cases heffect : g₀.effect with
    | deny =>
        rw [heffect] at hexact
        rw [denied_of_exactGrant engine c proposal x hexact] at hconfirm
        cases hconfirm
    | allow =>
        rw [heffect] at hexact
        exact absurd hconfirm (not_confirm_of_exactGrant engine c proposal x hexact)

/-- A grant whose row passes the filter decides. -/
theorem decides_of_active (hserde : ScopeRead W proposal)
    (hkeys : UniqueKey GrantRow.id s.data.database.sessions.grants)
    (hmem : row ∈ s.data.database.sessions.grants) (hid : row.id = grant.id.asStr)
    (hrow : RowOf W grant row)
    (hactive : holds (activeFor (queryAt W proposal sessionId (W.clock (s.consulted + 3)))
      row) = true)
    {p : Prepared} (hp : Prepares W PolicyEngine.authorizeProposal proposal sessionId s p) :
    Decides W grant proposal sessionId s p := by
  have heffect : row.effect = permissionEffect grant.effect := by
    rw [hrow]
    rfl
  have hselected : row ∈ select (activeFor (queryAt W proposal sessionId
      (W.clock (s.consulted + 3)))) s.data.database.sessions.grants :=
    (mem_select _ _ _).mpr ⟨hmem, hactive⟩
  obtain ⟨context, hcontext, hevaluation⟩ := hp.evaluation
  -- The row is active, so some row is looked up.
  rcases contextAt_cases hserde hcontext with
    ⟨hnone, -⟩ | ⟨found, hfound, g, hg, hfirst, hsingle, hexact⟩
  · rw [hnone] at hselected
    cases hselected
  refine ⟨?_, ?_, ?_⟩
  -- A denying grant comes first, and its effect prevails.
  · intro hdeny
    rw [hdeny] at heffect
    rw [hfirst row hselected heffect] at hexact
    rw [hevaluation]
    exact denied_of_exactGrant _ _ _ _ hexact
  -- An allowing grant leaves no room for a question.
  · intro hallow
    rw [hevaluation]
    cases hlooked : g.effect with
    | deny =>
        rw [hlooked] at hexact
        rw [denied_of_exactGrant _ _ _ _ hexact]
        decide
    | allow =>
        rw [hlooked] at hexact
        exact not_confirm_of_exactGrant _ _ _ _ hexact
  -- And where the question would be asked without it, it allows.
  · intro hallow context₀ hcontext₀ hconfirm
    rw [hallow] at heffect
    obtain ⟨rfl, hothers⟩ := effect_of_confirm hserde hkeys hmem hid heffect hcontext₀ hconfirm
    rw [hevaluation]
    cases hlooked : g.effect with
    | deny =>
        rw [hlooked] at hg
        exact absurd hg.symm (hothers found hfound)
    | allow =>
        rw [hlooked] at hexact
        rw [← contextFor_withGrants_nil] at hconfirm
        exact allowed_of_exactGrant _ _ _ _ hexact hsingle hconfirm

/-- A row that no filter accepts can be left out. -/
theorem ignored_of_inactive (hkeys : UniqueKey GrantRow.id s.data.database.sessions.grants)
    (hmem : row ∈ s.data.database.sessions.grants) (hid : row.id = grant.id.asStr)
    (hinactive : ¬ holds (activeFor (queryAt W proposal sessionId (W.clock (s.consulted + 3)))
      row) = true) : Ignored W grant proposal sessionId s := by
  refine contextAt_withoutGrant fun other hother hsame => ?_
  rw [hkeys.eq_of_mem hother hmem (hsame.trans hid.symm)]
  exact hinactive

/-- While it is not revoked, a grant that was accepted is stored by a row of its own. -/
theorem row_of_accepted {input : PermissionGrantUpsert} {s₁ : ServiceState} {later : List Input}
    {asked : Option PermissionId} (haccepted : Accepted W input grant s₁)
    (hkeys : UniqueKey GrantRow.id s₁.data.database.sessions.grants)
    (hlater : ∀ i ∈ later, askedGrant i ≠ some grant.id)
    (hreached : Operates W asked (run (step W) s₁ later) s) (hasked : asked ≠ some grant.id)
    (hfresh : ∀ n, s₁.consulted ≤ n → n < s.consulted →
      .generate .permission (W.stamp n) ≠ grant.id)
    (hunrevoked : Unrevoked grant.id s) :
    UniqueKey GrantRow.id s.data.database.sessions.grants ∧
      ∃ row ∈ s.data.database.sessions.grants,
        row.id = grant.id.asStr ∧ RowOf W grant row ∧ row.revokedAtMs = none := by
  obtain ⟨row, hmem, hid, hrow⟩ := haccepted.stored
  have htracked : Tracked grant.id row s₁.data.database.sessions :=
    ⟨hkeys, row, hmem, hid, refl_of Follows row⟩
  have hrun : Tracked grant.id row (run (step W) s₁ later).data.database.sessions := by
    apply tracked_after htracked hlater
    intro n hn hn'
    exact hfresh n hn (Nat.lt_of_lt_of_le hn' hreached.consulted)
  have hstate : Tracked grant.id row s.data.database.sessions := by
    apply tracked_of_operates hrun hreached hasked
    intro n hn hn'
    exact hfresh n (Nat.le_trans (consulted_le_run s₁ later) hn) hn'
  obtain ⟨hkeys', row', hmem', hid', hfollows⟩ := hstate
  exact ⟨hkeys', row', hmem', hid', hrow.follows hfollows, hunrevoked row' hmem' hid'⟩

end

/-- From the request that stores it until its revocation, a grant for a chat or for a run of an
agent decides the proposals of its session, and one for the session of the daemon decides none. The
proposal may come in the middle of a request. -/
theorem session_grant_decides (W : World) (registry : CapabilityRegistry) (policy : PolicyEngine)
    (before later : List Input) (requestId : String) (input : PermissionGrantUpsert)
    (grant : PermissionGrant) (s₁ s : ServiceState)
    (haccepted : handle W ⟨requestId, .upsertPermissionGrant input⟩
      (after W registry policy before) = (.ok (.permissionSaved grant), s₁))
    (hlifetime : input.lifetime = .session)
    (hlater : ∀ i ∈ later, askedGrant i ≠ some grant.id)
    (hreached : Operates W none (run (step W) s₁ later) s)
    (hfresh : ∀ n, s₁.consulted ≤ n → n < s.consulted →
      .generate .permission (W.stamp n) ≠ grant.id)
    (hunrevoked : Unrevoked grant.id s)
    (session : PermissionSessionScope) (hsession : grant.session = some session)
    (proposal : ActionProposal) (hserde : ScopeRead W proposal) (sessionId : Option ChatSessionId)
    (hinside : Inside s proposal sessionId session) (hscope : grant.scope = .fromProposal proposal)
    (hagent : grant.agentId = permissionAgent proposal) (p : Prepared) (s' : ServiceState)
    (hprepare : prepare W PolicyEngine.authorizeProposal proposal sessionId s = (.ok p, s')) :
    (LookedUp session → Decides W grant proposal sessionId s p) ∧
      (¬ LookedUp session → Ignored W grant proposal sessionId s) := by
  have hsaved : Accepted W input grant s₁ := by
    have hreturns := (returns_upsertPermissionGrant (W := W) input
      (after W registry policy before)).of_eq haccepted
    exact hreturns grant rfl
  have hoperates : Operates W (askedGrant (.request ⟨requestId, .upsertPermissionGrant input⟩))
      (after W registry policy before) s₁ := by
    have hstep := operates_step (W := W) (after W registry policy before)
      (.request ⟨requestId, .upsertPermissionGrant input⟩)
    rw [step, haccepted] at hstep
    exact hstep
  -- The identifiers stay unique, and the row stays as it was accepted.
  have hkeys₁ := uniqueKey_of_operates hoperates (uniqueKey_after registry policy before)
  obtain ⟨hkeys, row, hmem, hid, hrow, hrevoked⟩ :=
    row_of_accepted hsaved hkeys₁ hlater hreached (by simp) hfresh hunrevoked
  obtain ⟨hexpiry, hlimit⟩ := hsaved.limits hlifetime
  have hkept : grant.lifetime = .session := hsaved.lifetime.trans hlifetime
  constructor
  -- A grant for a chat or an agent is active in its session, and decides.
  · intro hlooked
    have hsame : grant.session = permissionSession proposal sessionId := by
      rw [hsession, permissionSession_of_inside hinside hlooked]
    have hprepares := ((returns_prepare _ _ _ _).of_eq hprepare).1
    refine decides_of_active hserde hkeys hmem hid hrow ?_ hprepares
    exact holds_activeFor_rowOf hrow hrevoked hkept hexpiry hlimit hsame hscope hagent
  -- A grant for the daemon is compared with a session that is never looked up.
  · intro hignored
    refine ignored_of_inactive hkeys hmem hid ?_
    cases session with
    | chat id => exact absurd trivial hignored
    | agent id => exact absurd trivial hignored
    | daemon id => exact not_holds_activeFor_daemon hrow hkept hsession proposal sessionId _

/-! ## A grant for a chat, and one for the daemon's session -/

/-- A Deny of the launch, for a session. -/
def denyLaunch (session : PermissionSessionScope) : PermissionGrantUpsert :=
  { allowLaunch .session none with effect := .deny, session := some session }

/-- The first grant that is stored. -/
def deniedLaunch (session : PermissionSessionScope) : PermissionGrant :=
  grantOf (denyLaunch session) (.generate .permission ⟨0, 0, 3⟩) (some session, none, none) 2

/-- The request is answered with this grant. -/
def saves (grant : PermissionGrant) : Except Failure ProtocolResponse → Bool
  | .ok (.permissionSaved saved) => decide (saved = grant)
  | _ => false

theorem eq_of_saves {grant : PermissionGrant} {r : Except Failure ProtocolResponse × ServiceState}
    (h : saves grant r.1 = true) : r = (.ok (.permissionSaved grant), r.2) := by
  obtain ⟨response, s⟩ := r
  dsimp only at h ⊢
  unfold saves at h
  split at h
  · rw [decide_eq_true_eq] at h
    rw [h]
  · cases h

/-- The evaluation has this outcome. -/
def comesTo (outcome : PolicyOutcome) : Except Failure Prepared → Bool
  | .ok p => decide (p.evaluation.decision.outcome = outcome)
  | .error _ => false

theorem outcome_of_comesTo {outcome : PolicyOutcome} {p : Prepared} {s : ServiceState}
    {r : Except Failure Prepared × ServiceState} (hr : r = (.ok p, s))
    (h : comesTo outcome r.1 = true) : p.evaluation.decision.outcome = outcome := by
  rw [hr] at h
  exact of_decide_eq_true h

/-- The first request of a run stores the grant. -/
def launchSaved (session : PermissionSessionScope)
    : Except Failure ProtocolResponse × ServiceState :=
  handle launchWorld ⟨"request:1", .upsertPermissionGrant (denyLaunch session)⟩
    (after launchWorld .launching .new [])

/-- The launch is evaluated next. -/
def launchPrepared (session : PermissionSessionScope) (sessionId : Option ChatSessionId) :
    Except Failure Prepared × ServiceState :=
  prepare launchWorld PolicyEngine.authorizeProposal launchProposal sessionId
    (launchSaved session).2

/-- A conversation. -/
def launchChat : ChatSessionId := ⟨"chat-session:1", by decide⟩

/-- The session of the daemon in its first run. -/
def launchDaemon : DaemonSessionId := .generate .daemonSession ⟨0, 0, 0⟩

/-- A Deny for a chat denies in the chat. -/
theorem session_grant_decides_chat : ∃ p s',
    launchPrepared (.chat launchChat) (some launchChat) = (.ok p, s') ∧
      Decides launchWorld (deniedLaunch (.chat launchChat)) launchProposal (some launchChat)
        (launchSaved (.chat launchChat)).2 p ∧
      p.evaluation.decision.outcome = .deny := by
  have hsaves :
      saves (deniedLaunch (.chat launchChat)) (launchSaved (.chat launchChat)).1 = true := by
    decide +kernel
  have hsaved : launchSaved (.chat launchChat) =
      (.ok (.permissionSaved (deniedLaunch (.chat launchChat))),
        (launchSaved (.chat launchChat)).2) := eq_of_saves hsaves
  have hcomes : comesTo .deny (launchPrepared (.chat launchChat) (some launchChat)).1 = true := by
    decide +kernel
  have hunrevoked : ∀ row ∈ (launchSaved (.chat launchChat)).2.data.database.sessions.grants,
      row.id = (deniedLaunch (.chat launchChat)).id.asStr → row.revokedAtMs = none := by
    decide +kernel
  have hread :
      launchWorld.serde.fromText (launchWorld.serde.toText (.fromProposal launchProposal)) =
    some (.fromProposal launchProposal) := by decide +kernel
  cases hprepare : launchPrepared (.chat launchChat) (some launchChat) with
  | mk r s' =>
      cases r with
      | error e =>
          rw [hprepare] at hcomes
          cases hcomes
      | ok p =>
          refine ⟨p, s', rfl, ?_, outcome_of_comesTo hprepare hcomes⟩
          exact (session_grant_decides launchWorld .launching .new [] [] "request:1"
            (denyLaunch (.chat launchChat)) (deniedLaunch (.chat launchChat))
            (launchSaved (.chat launchChat)).2 (launchSaved (.chat launchChat)).2 hsaved rfl
            (by simp) (refl_of _ _)
            (fun n hn hn' => absurd hn (Nat.not_le.mpr hn')) hunrevoked (.chat launchChat) rfl
            launchProposal hread (some launchChat) ⟨rfl, rfl⟩ rfl rfl p s' hprepare).1 trivial

/-- A Deny for the session of the daemon is accepted and denies nothing in it. -/
theorem daemon_grant_ignored :
    ¬ ∀ (W : World) (registry : CapabilityRegistry) (policy : PolicyEngine)
      (before later : List Input) (requestId : String) (input : PermissionGrantUpsert)
      (grant : PermissionGrant) (s₁ s : ServiceState),
      handle W ⟨requestId, .upsertPermissionGrant input⟩ (after W registry policy before) =
        (.ok (.permissionSaved grant), s₁) →
      input.lifetime = .session →
      (∀ i ∈ later, askedGrant i ≠ some grant.id) →
      Operates W none (run (step W) s₁ later) s →
      (∀ n, s₁.consulted ≤ n → n < s.consulted →
        .generate .permission (W.stamp n) ≠ grant.id) →
      Unrevoked grant.id s →
      ∀ session, grant.session = some session →
      ∀ (proposal : ActionProposal), ScopeRead W proposal →
      ∀ (sessionId : Option ChatSessionId), Inside s proposal sessionId session →
      grant.scope = .fromProposal proposal → grant.agentId = permissionAgent proposal →
      ∀ (p : Prepared) (s' : ServiceState),
        prepare W PolicyEngine.authorizeProposal proposal sessionId s = (.ok p, s') →
        Decides W grant proposal sessionId s p := by
  intro h
  have hsaves : saves (deniedLaunch (.daemon launchDaemon))
      (launchSaved (.daemon launchDaemon)).1 = true := by decide +kernel
  have hsaved : launchSaved (.daemon launchDaemon) =
      (.ok (.permissionSaved (deniedLaunch (.daemon launchDaemon))),
        (launchSaved (.daemon launchDaemon)).2) := eq_of_saves hsaves
  have hcomes : comesTo .allow (launchPrepared (.daemon launchDaemon) none).1 = true := by
    decide +kernel
  have hunrevoked : ∀ row ∈ (launchSaved (.daemon launchDaemon)).2.data.database.sessions.grants,
      row.id = (deniedLaunch (.daemon launchDaemon)).id.asStr → row.revokedAtMs = none := by
    decide +kernel
  have hread :
      launchWorld.serde.fromText (launchWorld.serde.toText (.fromProposal launchProposal)) =
    some (.fromProposal launchProposal) := by decide +kernel
  have hinside : (launchSaved (.daemon launchDaemon)).2.data.daemonSessionId = launchDaemon := by
    decide +kernel
  cases hprepare : launchPrepared (.daemon launchDaemon) none with
  | mk r s' =>
      cases r with
      | error e =>
          rw [hprepare] at hcomes
          cases hcomes
      | ok p =>
          have hdecides := h launchWorld .launching .new [] [] "request:1"
            (denyLaunch (.daemon launchDaemon)) (deniedLaunch (.daemon launchDaemon))
            (launchSaved (.daemon launchDaemon)).2 (launchSaved (.daemon launchDaemon)).2 hsaved rfl
            (by simp) (refl_of _ _)
            (fun n hn hn' => absurd hn (Nat.not_le.mpr hn')) hunrevoked (.daemon launchDaemon) rfl
            launchProposal hread none hinside rfl rfl p s' hprepare
          have hdenied := hdecides.denies rfl
          rw [outcome_of_comesTo hprepare hcomes] at hdenied
          cases hdenied

end Halquen.Service.SessionGrants
