import Halquen.Service.DeniedConfirmations
import Halquen.Service.SessionGrants

/-!
# What a remembered confirmation permits

A confirmation that is remembered leaves an Allow grant for its exact scope behind. From then on the
grant lifts the confirmation of the proposals that it covers (`Covers`), and it changes the outcome
of no other evaluation; a revocation takes the effect back (`remembered_confirmation`).
-/

set_option autoImplicit false

namespace Halquen.Service.ConfirmedGrants

open Halquen.Domain.Ids Halquen.Domain.Capability Halquen.Domain.Security
open Halquen.Domain.Interaction
open Halquen.Policy.Engine Halquen.Policy.Specification Halquen.Policy.Authorization
open Halquen.Capabilities.Executor Halquen.Protocol.Messages
open Halquen.Library.Action Halquen.Library.Action.Act Halquen.Library.Run Halquen.Library.Sql
open Halquen.Service.Context Halquen.Service.State Halquen.Service.Proposals
open Halquen.Service.Confirmations Halquen.Service.Handler Halquen.Service.GrantClaims
open Halquen.Service.GrantRuns Halquen.Service.SessionGrants Halquen.Service.SingleUse
open Halquen.Service.DeniedConfirmations Halquen.Service.Walk
open Halquen.Storage.Grants Halquen.Storage.Sessions Halquen.Storage.GrantUse Halquen.Storage.Sqlite

/-! ## Outcomes -/

/-- An Allow for exactly the proposal: nothing is left to be confirmed. -/
def lifted : PolicyOutcome → PolicyOutcome
  | .confirm => .allow
  | outcome => outcome

@[simp]
theorem lifted_lifted (outcome : PolicyOutcome) : lifted (lifted outcome) = lifted outcome := by
  cases outcome <;> rfl

/-- Outcome of `policy_context` followed by `authorize_proposal`, on these tables. -/
def outcomeAt (W : World) (engine : PolicyEngine) (c : CapabilityDescriptor) (x : ExecutionId)
    (d : Database) (proposal : ActionProposal) (sessionId : Option ChatSessionId)
    (nowMs : Int) : Except StorageError PolicyOutcome :=
  (contextAt W d proposal sessionId nowMs).map fun context =>
    (engine.authorizeProposal c proposal x context).decision.outcome

section

variable (engine : PolicyEngine) (c : CapabilityDescriptor) (proposal : ActionProposal)
  (x : ExecutionId) {context : PolicyContext}

/-- An Allow is no obstacle, and takes none away. -/
theorem unobstructed_withGrants_allow {g : PermissionGrant} (h : g.effect = .allow) :
    Unobstructed c proposal (withGrants context [g]) ↔
      Unobstructed c proposal (withGrants context []) := by
  have hnone : ¬ ∃ g', ExactGrant (withGrants context []) proposal .deny g' := by
    rintro ⟨g', hg'⟩
    cases hg'.mem
  have hallowed : ¬ ∃ g', ExactGrant (withGrants context [g]) proposal .deny g' := by
    rintro ⟨g', hg'⟩
    have heffect := hg'.effect_eq
    rw [List.mem_singleton.mp hg'.mem, h] at heffect
    cases heffect
  constructor
  · intro hclear
    exact { hclear with scopes := hclear.scopes, not_denied := hnone }
  · intro hclear
    exact { hclear with scopes := hclear.scopes, not_denied := hallowed }

/-- One exact Allow changes a Confirm, and nothing else. -/
theorem outcome_withGrants_allow {g : PermissionGrant}
    (h : ExactGrant (withGrants context [g]) proposal .allow g) :
    (engine.authorizeProposal c proposal x (withGrants context [g])).decision.outcome =
      lifted (engine.authorizeProposal c proposal x (withGrants context [])).decision.outcome := by
  by_cases hcontract : Contract c proposal
  · have hclear : Unobstructed c proposal (withGrants context [g]) ↔
        Unobstructed c proposal (withGrants context []) :=
      unobstructed_withGrants_allow c proposal h.effect_eq
    cases houtcome :
      (engine.authorizeProposal c proposal x (withGrants context [])).decision.outcome with
    | confirm => exact allowed_of_exactGrant engine c proposal x h rfl houtcome
    | deny =>
        rw [outcome_authorizeProposal_of_contract engine c proposal x hcontract] at houtcome ⊢
        rw [outcome_decide_eq_deny_iff, ← hclear] at houtcome
        exact (outcome_decide_eq_deny_iff engine c proposal _).mpr houtcome
    | allow =>
        rw [outcome_authorizeProposal_of_contract engine c proposal x hcontract] at houtcome ⊢
        obtain ⟨hfree, hbaseline⟩ := (outcome_decide_eq_allow_iff engine c proposal _).mp houtcome
        refine (outcome_decide_eq_allow_iff engine c proposal _).mpr ⟨hclear.mpr hfree, ?_⟩
        exact hbaseline.imp_right fun hconfirm => ⟨hconfirm.1, g, h⟩
  · rw [outcome_authorizeProposal_of_not_contract engine c proposal x hcontract,
      outcome_authorizeProposal_of_not_contract engine c proposal x hcontract]
    rfl

/-- An exact grant that is looked up settles the matter, one way or the other. -/
theorem lifted_of_exactGrant {g : PermissionGrant}
    (h : ExactGrant context proposal g.effect g) :
    lifted (engine.authorizeProposal c proposal x context).decision.outcome =
      (engine.authorizeProposal c proposal x context).decision.outcome := by
  cases heffect : g.effect with
  | deny =>
      rw [heffect] at h
      rw [denied_of_exactGrant engine c proposal x h]
      rfl
  | allow =>
      rw [heffect] at h
      have hnot := not_confirm_of_exactGrant engine c proposal x h
      cases houtcome : (engine.authorizeProposal c proposal x context).decision.outcome with
      | confirm => exact absurd houtcome hnot
      | _ => rfl

end

/-! ## Tables with and without a grant -/

section

variable {W : World} {d : Database} {proposal : ActionProposal} {sessionId : Option ChatSessionId}
  {nowMs : Int} {id : PermissionId} {row : GrantRow}

theorem lookupKey_injective {rows : List GrantRow} (hkeys : UniqueKey GrantRow.id rows) :
    ∀ a ∈ rows, ∀ b ∈ rows, lookupKey a = lookupKey b → a = b := by
  intro a ha b hb hsame
  refine hkeys.eq_of_mem ha hb ?_
  exact congrArg (fun key : Nat ×ₗ Int ×ₗ String => (ofLex (ofLex key).2).2) hsame

theorem outcomeAt_eq_ok_iff {engine : PolicyEngine} {c : CapabilityDescriptor} {x : ExecutionId}
    {outcome : PolicyOutcome} :
    outcomeAt W engine c x d proposal sessionId nowMs = .ok outcome ↔
      ∃ context, contextAt W d proposal sessionId nowMs = .ok context ∧
        (engine.authorizeProposal c proposal x context).decision.outcome = outcome := by
  unfold outcomeAt
  cases contextAt W d proposal sessionId nowMs with
  | error e => simp [Except.map]
  | ok context => simp [Except.map]

/-- Where no Deny is active, the outcome lifts as the one without any grant. -/
theorem lifted_outcome_of_no_deny (hserde : ScopeRead W proposal) {context : PolicyContext}
    (h : contextAt W d proposal sessionId nowMs = .ok context)
    (hnodeny : ∀ other ∈ select (activeFor (queryAt W proposal sessionId nowMs)) d.sessions.grants,
      other.effect ≠ "deny") (engine : PolicyEngine) (c : CapabilityDescriptor) (x : ExecutionId) :
    lifted (engine.authorizeProposal c proposal x context).decision.outcome =
      lifted (engine.authorizeProposal c proposal x
        (withGrants (contextFor d.profile proposal sessionId nowMs) [])).decision.outcome := by
  rcases contextAt_cases hserde h with ⟨-, hcontext⟩ | ⟨row, hrow, g, hword, -, hcontext, hexact⟩
  · rw [hcontext, contextFor_withGrants_nil]
  · have hallow : g.effect = .allow := by
      cases heffect : g.effect with
      | allow => rfl
      | deny =>
          rw [heffect] at hword
          exact absurd hword.symm (hnodeny row hrow)
    rw [hallow, hcontext] at hexact
    rw [hcontext, outcome_withGrants_allow engine c proposal x hexact, lifted_lifted]

/-- The lookup finds the row of an Allow: it decides, and no Deny is active beside it. -/
theorem outcomeAt_of_found (hserde : ScopeRead W proposal) {g : PermissionGrant}
    (hread : permissionFromRow W.serde row = .ok g) (hallow : g.effect = .allow)
    (hfound : lookupRow (queryAt W proposal sessionId nowMs) d.sessions.grants = some row)
    {engine : PolicyEngine} {c : CapabilityDescriptor} {x : ExecutionId} {context : PolicyContext}
    (h : contextAt W (withoutGrant id d) proposal sessionId nowMs = .ok context) :
    outcomeAt W engine c x d proposal sessionId nowMs =
      .ok (lifted (engine.authorizeProposal c proposal x context).decision.outcome) := by
  obtain ⟨hmem, hleast⟩ := firstBy_spec hfound
  have hexact := exactGrant_of_row hserde hread ((mem_select _ _ _).mp hmem).2 d.profile
  rw [hallow] at hexact
  have hnodeny : ∀ other ∈ select (activeFor (queryAt W proposal sessionId nowMs))
      (withoutGrant id d).sessions.grants, other.effect ≠ "deny" := by
    intro other hother hdeny
    obtain ⟨hstored, hpasses⟩ := (mem_select _ _ _).mp hother
    have hfirst := effect_of_first
      (hleast other ((mem_select _ _ _).mpr ⟨(mem_withoutGrant.mp hstored).1, hpasses⟩)) hdeny
    rw [← effect_of_permissionFromRow hread, hallow] at hfirst
    exact absurd hfirst (by decide)
  refine outcomeAt_eq_ok_iff.mpr
    ⟨withGrants (contextFor d.profile proposal sessionId nowMs) [g], ?_, ?_⟩
  · rw [contextAt_eq, hfound]
    change Except.map _ (permissionFromRow W.serde row) = _
    rw [hread, ← contextFor_addPermissionGrant]
    rfl
  · rw [outcome_withGrants_allow engine c proposal x hexact,
      lifted_outcome_of_no_deny hserde h hnodeny]
    rfl

/-- The lookup finds the row of another grant: it decides in either table. -/
theorem outcomeAt_of_other (hserde : ScopeRead W proposal)
    (hkeys : UniqueKey GrantRow.id d.sessions.grants)
    (hfound : lookupRow (queryAt W proposal sessionId nowMs) d.sessions.grants = some row)
    (hother : row.id ≠ id.asStr) {engine : PolicyEngine} {c : CapabilityDescriptor}
    {x : ExecutionId} {context : PolicyContext}
    (h : contextAt W (withoutGrant id d) proposal sessionId nowMs = .ok context) :
    outcomeAt W engine c x d proposal sessionId nowMs =
      .ok (lifted (engine.authorizeProposal c proposal x context).decision.outcome) := by
  obtain ⟨hmem, -⟩ := firstBy_spec hfound
  obtain ⟨hstored, hpasses⟩ := (mem_select _ _ _).mp hmem
  have hkept : row ∈ select (activeFor (queryAt W proposal sessionId nowMs))
      (withoutGrant id d).sessions.grants :=
    (mem_select _ _ _).mpr ⟨mem_withoutGrant.mpr ⟨hstored, hother⟩, hpasses⟩
  have hsubset : select (activeFor (queryAt W proposal sessionId nowMs))
      (withoutGrant id d).sessions.grants ⊆
      select (activeFor (queryAt W proposal sessionId nowMs)) d.sessions.grants := by
    intro r hr
    obtain ⟨hr, hactive⟩ := (mem_select _ _ _).mp hr
    exact (mem_select _ _ _).mpr ⟨(mem_withoutGrant.mp hr).1, hactive⟩
  -- The row that is looked up is another one, so it is found without the grant as well.
  have hlookup : lookupRow (queryAt W proposal sessionId nowMs)
      (withoutGrant id d).sessions.grants = some row := by
    refine firstBy_of_subset (fun a ha b hb hsame => ?_) hfound hsubset hkept
    exact lookupKey_injective hkeys a ((mem_select _ _ _).mp (hsubset ha)).1 b
      ((mem_select _ _ _).mp (hsubset hb)).1 hsame
  refine outcomeAt_eq_ok_iff.mpr ⟨context, ?_, ?_⟩
  · rw [contextAt_eq, hlookup] at h
    rw [contextAt_eq, hfound]
    exact h
  · rcases contextAt_cases hserde h with ⟨hnone, -⟩ | ⟨-, -, g, -, -, -, hexact⟩
    · rw [hnone] at hkept
      cases hkept
    · exact (lifted_of_exactGrant engine c proposal x hexact).symm

/-- A row of an Allow that passes the filter lifts the outcome that there is without it. -/
theorem outcomeAt_of_active (hserde : ScopeRead W proposal)
    (hkeys : UniqueKey GrantRow.id d.sessions.grants) (hmem : row ∈ d.sessions.grants)
    (hid : row.id = id.asStr) {g : PermissionGrant} (hread : permissionFromRow W.serde row = .ok g)
    (hallow : g.effect = .allow)
    (hactive : holds (activeFor (queryAt W proposal sessionId nowMs) row) = true)
    {engine : PolicyEngine} {c : CapabilityDescriptor} {x : ExecutionId} {outcome : PolicyOutcome}
    (h : outcomeAt W engine c x (withoutGrant id d) proposal sessionId nowMs = .ok outcome) :
    outcomeAt W engine c x d proposal sessionId nowMs = .ok (lifted outcome) := by
  obtain ⟨context, hcontext, rfl⟩ := outcomeAt_eq_ok_iff.mp h
  have hselected : row ∈ select (activeFor (queryAt W proposal sessionId nowMs))
      d.sessions.grants := (mem_select _ _ _).mpr ⟨hmem, hactive⟩
  cases hfound : lookupRow (queryAt W proposal sessionId nowMs) d.sessions.grants with
  | none =>
      rw [lookupRow, firstBy_eq_none_iff] at hfound
      rw [hfound] at hselected
      cases hselected
  | some found =>
      by_cases hsame : found.id = id.asStr
      · have hstored := ((mem_select _ _ _).mp (firstBy_spec hfound).1).1
        obtain rfl : found = row := hkeys.eq_of_mem hstored hmem (hsame.trans hid.symm)
        exact outcomeAt_of_found hserde hread hallow hfound hcontext
      · exact outcomeAt_of_other hserde hkeys hfound hsame hcontext

end

/-! ## The grant of a confirmation -/

/-- The approval of a proposal covers another one: the scope and the agent are the same, for an
approval of a session the session is, and an approval until a time has not run out. -/
def Covers (pending : PendingConfirmation) (persistence : ConfirmationPersistence)
    (expiresAtMs : Option Int) (proposal : ActionProposal) (sessionId : Option ChatSessionId)
    (nowMs : Int) : Prop :=
  PermissionScope.fromProposal proposal = .fromProposal pending.proposal ∧
    permissionAgent proposal = permissionAgent pending.proposal ∧
    (persistence = .session → permissionSession proposal sessionId =
      permissionSession pending.proposal pending.sessionId) ∧
    (persistence = .until → ∀ expiry ∈ expiresAtMs, nowMs ≤ expiry)

instance (pending : PendingConfirmation) (persistence : ConfirmationPersistence)
    (expiresAtMs : Option Int) (proposal : ActionProposal) (sessionId : Option ChatSessionId)
    (nowMs : Int) :
    Decidable (Covers pending persistence expiresAtMs proposal sessionId nowMs) := by
  unfold Covers
  infer_instance

/-- The tables after the revocation of a grant. -/
def revoked (id : PermissionId) (atMs : Int) (d : Database) : Database :=
  { d with sessions := { d.sessions with
      grants := (revokePermission d.sessions.grants id atMs).2 } }

section

variable {W : World} {pending : PendingConfirmation} {persistence : ConfirmationPersistence}
  {expiresAtMs : Option Int} {startedAtMs : Int} {id : PermissionId}
  {terms : PermissionLifetime × Option PermissionSessionScope × Option Int}

/-- Session and expiry of the grant are those that were chosen. -/
theorem grantTerms_eq_ok
    (hterms : grantTerms pending startedAtMs expiresAtMs persistence = .ok terms) :
    (terms.1 = .session ↔ persistence = .session) ∧
      (persistence = .session →
        terms.2.1 = permissionSession pending.proposal pending.sessionId) ∧
      terms.2.2 = if persistence = .until then expiresAtMs else none := by
  cases persistence with
  | once => cases hterms
  | session =>
      simp only [grantTerms] at hterms
      split at hterms
      · rename_i session hsession
        cases hterms
        exact ⟨iff_of_true rfl rfl, fun _ => hsession.symm, rfl⟩
      · cases hterms
  | «until» =>
      simp only [grantTerms] at hterms
      split at hterms
      · rename_i expiry hexpiry
        cases hterms
        exact ⟨by simp, by simp, (Option.filter_eq_some_iff.mp hexpiry).1.symm⟩
      · cases hterms
  | always =>
      cases hterms
      exact ⟨by simp, by simp, rfl⟩

/-- The grant is active for a proposal exactly if the approval covers it. -/
theorem isActive_confirmedGrant_iff
    (hterms : grantTerms pending startedAtMs expiresAtMs persistence = .ok terms)
    (grantedAtMs : Int) (proposal : ActionProposal) (sessionId : Option ChatSessionId)
    (nowMs : Int) :
    (({ confirmedGrant pending startedAtMs id terms with grantedAtMs := grantedAtMs }).isActive
        nowMs (permissionSession proposal sessionId) (permissionAgent proposal) &&
      (confirmedGrant pending startedAtMs id terms).scope.matches proposal) = true ↔
      Covers pending persistence expiresAtMs proposal sessionId nowMs := by
  obtain ⟨hlifetime, hsession, hexpiry⟩ := grantTerms_eq_ok hterms
  rw [Bool.and_eq_true, PermissionGrant.isActive_iff, PermissionScope.matches_iff]
  unfold Covers
  constructor
  · rintro ⟨⟨-, hlive, -, hinside, hagent⟩, hscope⟩
    refine ⟨hscope.symm, hagent.symm, fun hkind => ?_, fun hkind expiry hmem => ?_⟩
    · exact (hinside (hlifetime.mpr hkind)).symm.trans (hsession hkind)
    · refine hlive expiry ?_
      change expiry ∈ terms.2.2
      rwa [hexpiry, if_pos hkind]
  · rintro ⟨hscope, hagent, hinside, hlive⟩
    refine ⟨⟨rfl, fun expiry hmem => ?_, fun limit hmem => (nomatch hmem), fun hkind => ?_,
      hagent.symm⟩, hscope.symm⟩
    · change expiry ∈ terms.2.2 at hmem
      rw [hexpiry] at hmem
      split at hmem
      · rename_i hkind
        exact hlive hkind expiry hmem
      · cases hmem
    · have hsame := hlifetime.mp hkind
      exact (hsession hsame).trans (hinside hsame).symm

theorem sessionShaped_confirmedGrant
    (hterms : grantTerms pending startedAtMs expiresAtMs persistence = .ok terms)
    (grantedAtMs : Int) :
    SessionShaped
      { confirmedGrant pending startedAtMs id terms with grantedAtMs := grantedAtMs } := by
  change terms.1 = .session ↔ terms.2.1.isSome = true
  cases persistence with
  | once => cases hterms
  | always =>
      cases hterms
      simp
  | session =>
      simp only [grantTerms] at hterms
      split at hterms
      · cases hterms
        simp
      · cases hterms
  | «until» =>
      simp only [grantTerms] at hterms
      split at hterms
      · cases hterms
        simp
      · cases hterms

/-- The row of the grant passes the filter of the proposals that the approval covers. -/
theorem holds_activeFor_confirmedGrant_iff (hread : ScopeRead W pending.proposal)
    (hterms : grantTerms pending startedAtMs expiresAtMs persistence = .ok terms)
    (grantedAtMs : Int) {proposal : ActionProposal} (hserde : ScopeRead W proposal)
    (sessionId : Option ChatSessionId) (nowMs : Int) :
    holds (activeFor (queryAt W proposal sessionId nowMs) (GrantRow.ofGrant W.serde
        { confirmedGrant pending startedAtMs id terms with grantedAtMs := grantedAtMs })) = true ↔
      Covers pending persistence expiresAtMs proposal sessionId nowMs := by
  rw [← isActive_confirmedGrant_iff hterms grantedAtMs]
  refine holds_activeFor_ofGrant_of_apart (fun htext => ?_)
    (sessionShaped_confirmedGrant hterms grantedAtMs) _ _ nowMs
  -- Both scopes are read back from the same text.
  have hsame : W.serde.fromText (W.serde.toText (.fromProposal pending.proposal)) =
      W.serde.fromText (W.serde.toText (.fromProposal proposal)) := congrArg W.serde.fromText htext
  unfold ScopeRead at hread hserde
  rw [hread, hserde] at hsame
  exact Option.some.inj hsame

/-- What a remembered confirmation leaves behind: the row of an Allow with its terms. -/
structure Remembers (W : World) (pending : PendingConfirmation)
    (persistence : ConfirmationPersistence) (expiresAtMs : Option Int) (id : PermissionId)
    (before : List GrantRow) (rows : List GrantRow) : Prop where
  stored : ∃ startedAtMs terms,
    grantTerms pending startedAtMs expiresAtMs persistence = .ok terms ∧
      Storage.Grants.upsertPermissionGrant W.serde before
        (confirmedGrant pending startedAtMs id terms) = .ok rows

theorem returns_saveGrant (grant : PermissionGrant) (s : ServiceState) :
    Returns (query W .upsertPermissionGrant (saveGrant W.serde grant)) s fun _ s' =>
      Storage.Grants.upsertPermissionGrant W.serde s.data.database.sessions.grants grant =
        .ok s'.data.database.sessions.grants := by
  refine returns_query ?_
  rw [Returns, saveGrant, post_onGrants]
  intro u hu
  change Except.map _ (Storage.Grants.upsertPermissionGrant W.serde
    s.data.database.sessions.grants grant) = .ok u at hu
  change Storage.Grants.upsertPermissionGrant W.serde s.data.database.sessions.grants grant =
    .ok ((Storage.Grants.upsertPermissionGrant W.serde s.data.database.sessions.grants
      grant).toOption.getD s.data.database.sessions.grants)
  cases hrows : Storage.Grants.upsertPermissionGrant W.serde s.data.database.sessions.grants
      grant with
  | error e =>
      rw [hrows] at hu
      cases hu
  | ok rows => rfl

theorem returns_rememberConfirmation (hremembered : persistence ≠ .once) (s : ServiceState) :
    Returns (rememberConfirmation W pending startedAtMs persistence expiresAtMs) s fun _ s' =>
      ∃ id, Remembers W pending persistence expiresAtMs id s.data.database.sessions.grants
        s'.data.database.sessions.grants := by
  unfold rememberConfirmation
  rw [if_neg hremembered]
  simp only [returns_bind, returns_ofExcept, returns_generate]
  intro terms hterms
  refine (returns_saveGrant _ s.next).mono fun _ s' hsaved => ?_
  exact ⟨_, startedAtMs, terms, hterms, hsaved⟩

/-- The execution that follows leaves the grants alone. -/
theorem returns_performConfirmed_grants (p : Prepared) (authorization : ExecutionAuthorization)
    (s : ServiceState) :
    Returns (performConfirmed W p authorization) s fun _ s' =>
      s'.data.database.sessions.grants = s.data.database.sessions.grants := by
  refine Post.mono (performConfirmed_spec p authorization s) ?_
  rintro r s' ⟨⟨reply, t, ⟨⟨e, rfl⟩, -⟩ | ⟨-, hfinished⟩⟩, -⟩ receipt hreceipt
  · cases hreceipt
  · generalize hdata : s'.data = d' at hfinished ⊢
    cases hfinished with
    | unrecorded => cases hreceipt
    | recorded => rfl

/-- An accepted confirmation that is remembered. -/
theorem returns_confirmAction (hremembered : persistence ≠ .once) (confirmationId : String)
    (s : ServiceState) (hpending : s.data.pendingConfirmations confirmationId = some pending) :
    Returns (confirmAction W confirmationId true persistence expiresAtMs) s fun _ s' =>
      ∃ id, Remembers W pending persistence expiresAtMs id s.data.database.sessions.grants
        s'.data.database.sessions.grants := by
  simp only [confirmAction, takePending, returns_bind, returns_gets, returns_orThrow,
    returns_modify, returns_pure, returns_now, returns_require, hpending, Option.some.injEq]
  rintro _ rfl -
  simp only [if_true, allowConfirmation, returns_bind, returns_orThrow, returns_pure]
  refine ((keeps_quiet_prepare _ _ _).returns _).mono fun p s₁ hquiet authorization _ => ?_
  refine (returns_rememberConfirmation hremembered s₁).mono ?_
  rintro - s₂ ⟨id, hstored⟩
  refine (returns_performConfirmed_grants p authorization s₂).mono fun _ s' hsame => ⟨id, ?_⟩
  rw [hsame]
  rw [hquiet.data] at hstored
  exact hstored

variable {before rows : List GrantRow}

/-- The row of the grant; only the time at which its identifier was first used may be another. -/
theorem Remembers.row (h : Remembers W pending persistence expiresAtMs id before rows) :
    ∃ startedAtMs terms grantedAtMs,
      grantTerms pending startedAtMs expiresAtMs persistence = .ok terms ∧
        GrantRow.ofGrant W.serde { confirmedGrant pending startedAtMs id terms with
          grantedAtMs := grantedAtMs } ∈ rows := by
  obtain ⟨startedAtMs, terms, hterms, hrows⟩ := h.stored
  rw [upsertPermissionGrant_spec hrows]
  rcases exists_mem_upsertRow GrantRow.id
      (GrantRow.ofGrant W.serde (confirmedGrant pending startedAtMs id terms))
      (GrantRow.ofGrant W.serde (confirmedGrant pending startedAtMs id terms)).replacedBy before
    with ⟨old, -, hid, hmem⟩ | hmem
  · rw [replacedBy_ofGrant _ hid] at hmem
    exact ⟨startedAtMs, terms, old.grantedAtMs, hterms, hmem⟩
  · exact ⟨startedAtMs, terms, startedAtMs, hterms, hmem⟩

/-- Apart from the row of the grant nothing is stored. -/
theorem Remembers.others (h : Remembers W pending persistence expiresAtMs id before rows) :
    rows.filter (fun row => row.id != id.asStr) = before.filter fun row => row.id != id.asStr := by
  obtain ⟨startedAtMs, terms, -, hrows⟩ := h.stored
  have hid : (GrantRow.ofGrant W.serde (confirmedGrant pending startedAtMs id terms)).id =
    id.asStr := rfl
  rw [upsertPermissionGrant_spec hrows, upsertRow]
  split
  · refine filter_map_of_fixed (fun row _ hkept => if_neg ?_) fun row _ hdropped => ?_
    · simpa [hid] using hkept
    · simp only [bne_eq_false_iff_eq] at hdropped
      rw [if_pos (hdropped.trans hid.symm)]
      exact bne_eq_false_iff_eq.mpr hdropped
  · rw [List.filter_append, List.filter_singleton]
    simp [hid]

end

section

variable {W : World} {d : Database} {id : PermissionId}

/-- A revoked grant counts for nothing. -/
theorem contextAt_revoked (atMs : Int) (proposal : ActionProposal)
    (sessionId : Option ChatSessionId) (nowMs : Int) :
    contextAt W (revoked id atMs d) proposal sessionId nowMs =
      contextAt W (withoutGrant id d) proposal sessionId nowMs := by
  have hinactive : ∀ row ∈ (revoked id atMs d).sessions.grants, row.id = id.asStr →
      ¬ holds (activeFor (queryAt W proposal sessionId nowMs) row) = true := by
    intro row hrow hid hactive
    have hunrevoked := ((holds_activeFor _ _).mp hactive).2.2.1
    rcases (mem_updateRows _ _ _ _).mp hrow with ⟨old, -, -, rfl⟩ | ⟨-, hkept⟩
    · cases hunrevoked
    · exact hkept (by simp [hid, hunrevoked])
  rw [← contextAt_withoutGrant hinactive]
  refine contextAt_congr rfl ?_
  have hothers : (withoutGrant id (revoked id atMs d)).sessions.grants =
      (withoutGrant id d).sessions.grants := by
    refine filter_map_of_fixed (fun row _ hkept => if_neg fun hcond => ?_) fun row _ hdropped => ?_
    · rw [holds_and, holds_eq] at hcond
      rw [Option.some.inj hcond.1.2] at hkept
      simp at hkept
    · split <;> exact hdropped
  rw [hothers]

end

/-- The policy after a remembered confirmation, against the same tables without its grant: what the
approval covers no longer has to be confirmed, every other outcome is the same, and a revocation
restores them all. -/
theorem remembered_confirmation (W : World) (registry : CapabilityRegistry) (policy : PolicyEngine)
    (inputs : List Input) (confirmationId : String) (pending : PendingConfirmation)
    (hpending : (after W registry policy inputs).data.pendingConfirmations confirmationId =
      some pending)
    (hread : ScopeRead W pending.proposal) (persistence : ConfirmationPersistence)
    (hremembered : persistence ≠ .once) (expiresAtMs : Option Int) (response : ProtocolResponse)
    (s : ServiceState)
    (hconfirmed : confirmAction W confirmationId true persistence expiresAtMs
      (after W registry policy inputs) = (.ok response, s)) :
    ∃ id : PermissionId,
      (withoutGrant id s.data.database).sessions.grants =
          (withoutGrant id (after W registry policy inputs).data.database).sessions.grants ∧
        ∀ (proposal : ActionProposal), ScopeRead W proposal →
          ∀ (sessionId : Option ChatSessionId) (nowMs : Int) (engine : PolicyEngine)
            (c : CapabilityDescriptor) (x : ExecutionId),
          (∀ outcome,
            outcomeAt W engine c x (withoutGrant id s.data.database) proposal sessionId nowMs =
              .ok outcome →
            outcomeAt W engine c x s.data.database proposal sessionId nowMs =
              .ok (if Covers pending persistence expiresAtMs proposal sessionId nowMs then
                lifted outcome else outcome)) ∧
          ∀ revokedAtMs, outcomeAt W engine c x (revoked id revokedAtMs s.data.database) proposal
              sessionId nowMs =
            outcomeAt W engine c x (withoutGrant id s.data.database) proposal sessionId nowMs := by
  obtain ⟨id, hstored⟩ :=
    (returns_confirmAction hremembered confirmationId _ hpending).of_eq hconfirmed
  refine ⟨id, hstored.others, fun proposal hserde sessionId nowMs engine c x => ⟨?_, ?_⟩⟩
  · intro outcome houtcome
    have hkeys : UniqueKey GrantRow.id s.data.database.sessions.grants := by
      have hkeeps : Keeps (Operates W none)
          (confirmAction W confirmationId true persistence expiresAtMs) :=
        keeps_confirmAction pipeline_operates confirmationId true persistence expiresAtMs
      have hoperates := hkeeps (after W registry policy inputs)
      rw [hconfirmed] at hoperates
      exact uniqueKey_of_operates hoperates (uniqueKey_after registry policy inputs)
    obtain ⟨startedAtMs, terms, grantedAtMs, hterms, hmem⟩ := hstored.row
    -- The grant of the confirmation is active for just what the confirmation covers.
    have hfilter : holds (activeFor (queryAt W proposal sessionId nowMs) (GrantRow.ofGrant W.serde
          { confirmedGrant pending startedAtMs id terms with grantedAtMs := grantedAtMs })) = true ↔
        Covers pending persistence expiresAtMs proposal sessionId nowMs :=
      holds_activeFor_confirmedGrant_iff hread hterms grantedAtMs hserde sessionId nowMs
    split
    · rename_i hcovers
      exact outcomeAt_of_active hserde hkeys hmem rfl (permissionFromRow_ofGrant_of_read hread) rfl
        (hfilter.mpr hcovers) houtcome
    · rename_i hcovers
      rw [← houtcome]
      unfold outcomeAt
      rw [contextAt_withoutGrant fun row hrow hid => ?_]
      rw [hkeys.eq_of_mem hrow hmem hid]
      exact mt hfilter.mp hcovers
  · intro revokedAtMs
    unfold outcomeAt
    rw [contextAt_revoked]

/-! ## A launch that is confirmed for good -/

/-- The waiting launch is confirmed, and the confirmation is remembered. -/
def confirmedForGood : Except Failure ProtocolResponse × ServiceState :=
  confirmAction waitingWorld waitingId true .always none
    (after waitingWorld .launching .new waitingRun)

/-- The tables after the confirmation, without any grant. -/
def ungranted : Database :=
  { confirmedForGood.2.data.database with
    sessions := { confirmedForGood.2.data.database.sessions with grants := [] } }

/-- The policy was asked and came to this outcome. -/
def evaluatesTo (outcome : PolicyOutcome) : Except StorageError PolicyOutcome → Bool
  | .ok found => decide (found = outcome)
  | .error _ => false

theorem eq_of_evaluatesTo {outcome : PolicyOutcome} {r : Except StorageError PolicyOutcome}
    (h : evaluatesTo outcome r = true) : r = .ok outcome := by
  cases r with
  | error e => cases h
  | ok found => exact congrArg _ (of_decide_eq_true h)

/-- The evaluation of a proposal at a time, under the Strict profile of the run. -/
def launchOutcome (d : Database) (proposal : ActionProposal) : Except StorageError PolicyOutcome :=
  outcomeAt waitingWorld .new openAppDescriptor ⟨"execution:1", by decide⟩ d proposal none 100

/-- The same launch is allowed afterwards, in no session, until the grant is revoked. -/
theorem remembered_confirmation_waiting : ∃ pending id,
    (after waitingWorld .launching .new waitingRun).data.pendingConfirmations waitingId =
        some pending ∧
      launchOutcome confirmedForGood.2.data.database pending.proposal = .ok .allow ∧
      launchOutcome (revoked id 90 confirmedForGood.2.data.database) pending.proposal =
        .ok .confirm := by
  have hfacts : ((after waitingWorld .launching .new waitingRun).data.pendingConfirmations
      waitingId).any (fun pending =>
        decide (waitingWorld.serde.fromText (waitingWorld.serde.toText
          (.fromProposal pending.proposal)) = some (.fromProposal pending.proposal)) &&
        evaluatesTo .confirm (launchOutcome ungranted pending.proposal)) = true ∧
      (after waitingWorld .launching .new waitingRun).data.database.sessions.grants = [] ∧
      confirmedForGood.1.toOption.isSome = true := by decide +kernel
  obtain ⟨hpending, hnone, hconfirmed⟩ := hfacts
  obtain ⟨pending, hpending, hchecks⟩ := (Option.any_eq_true _ _).mp hpending
  rw [Bool.and_eq_true, decide_eq_true_eq] at hchecks
  cases hrun : confirmedForGood with
  | mk r s =>
      rw [hrun] at hconfirmed
      cases r with
      | error e => cases hconfirmed
      | ok response =>
          obtain ⟨id, hothers, heffect⟩ := remembered_confirmation waitingWorld .launching .new
            waitingRun waitingId pending hpending hchecks.1 .always (by decide) none response s hrun
          -- The table was empty, so without the grant it is empty again.
          have hungranted : withoutGrant id s.data.database = ungranted := by
            have hempty : (withoutGrant id s.data.database).sessions.grants = [] := by
              rw [hothers]
              simp [withoutGrant, hnone]
            have hother : withoutGrant id s.data.database = { s.data.database with
                sessions := { s.data.database.sessions with
                  grants := (withoutGrant id s.data.database).sessions.grants } } := rfl
            rw [hother, hempty, ungranted, hrun]
          have hwithout := eq_of_evaluatesTo hchecks.2
          rw [← hungranted] at hwithout
          obtain ⟨hlifted, hrevoked⟩ := heffect pending.proposal hchecks.1 none 100 .new
            openAppDescriptor ⟨"execution:1", by decide⟩
          have hcovers : Covers pending .always none pending.proposal none 100 :=
            ⟨rfl, rfl, by simp, by simp⟩
          have hallowed := hlifted .confirm hwithout
          rw [if_pos hcovers] at hallowed
          exact ⟨pending, id, hpending, hallowed, (hrevoked 90).trans hwithout⟩

end Halquen.Service.ConfirmedGrants
